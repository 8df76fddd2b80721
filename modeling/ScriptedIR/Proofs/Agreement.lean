import ScriptedIR.Proofs.Places

/-!
The same calls in other surroundings. One environment is within another if its functions do the same
but may be laid out otherwise, and its limits are no larger. A call then ends in both in the same way,
unless a limit of the first cuts it short.
-/

namespace ScriptedIR

structure Function.Alike (f g : Function) : Prop where
  name : g.name = f.name
  params : g.params = f.params
  variadic : g.variadic = f.variadic
  nextTemp : g.nextTemp = f.nextTemp
  entry : g.entry? = f.entry?
  code : ∀ id, g.code? id = f.code? id

namespace Function.Alike

variable {f g : Function}

theorem refl (f : Function) : f.Alike f := ⟨rfl, rfl, rfl, rfl, rfl, fun _ => rfl⟩

theorem isDeclaration (h : f.Alike g) : g.isDeclaration = f.isDeclaration := by
  have hentry := h.entry
  unfold Function.isDeclaration
  unfold entry? at hentry
  cases hf : f.blocks <;> cases hg : g.blocks <;> simp_all

theorem start (h : f.Alike g) (id : BlockId) : g.start id = f.start id := by
  unfold Function.start
  rw [h.code]

end Function.Alike

structure Frame.Alike (a b : Frame) : Prop where
  function : a.function.Alike b.function
  room : b.function.nextTemp ≤ a.temps.size
  same : b = a.place b.function ⟨a.block, a.rest⟩

namespace Frame

variable {a b : Frame} {f g : Function}

theorem jump_eq_place (a : Frame) (id : BlockId) :
    a.jump id = a.place a.function (a.function.start id) :=
  jump_place (f := a.function) (p := ⟨a.block, a.rest⟩) id

theorem Alike.suits (h : a.Alike b) : b.function.Suits a := ⟨h.function.name.symm, h.room⟩

theorem Alike.jump (h : a.Alike b) (id : BlockId) : (a.jump id).Alike (b.jump id) := by
  rw [h.same, jump_place, jump_eq_place, h.function.start]
  exact ⟨h.function, h.room, rfl⟩

theorem Alike.behind (h : a.Alike b) (rest : List Instruction) :
    Alike { a with rest } { b with rest } := by
  refine ⟨h.function, h.room, ?_⟩
  rw [h.same]
  rfl

theorem Alike.rest (h : a.Alike b) : b.rest = a.rest := by
  rw [h.same]
  rfl

theorem Alike.block (h : a.Alike b) : b.block = a.block := by
  rw [h.same]
  rfl

theorem Alike.enter (h : f.Alike g) (args : List Datum) : (enter f args).Alike (enter g args) := by
  unfold Frame.enter
  rw [h.params, h.nextTemp, h.entry]
  apply Alike.jump
  exact ⟨h, by simp [h.nextTemp], rfl⟩

theorem Alike.receive (h : a.Alike b) (result : Option Temp) (d : Datum) :
    (∃ e, a.receive result d = .error e ∧ b.receive result d = .error e) ∨
      ∃ a' b', a.receive result d = .ok a' ∧ b.receive result d = .ok b' ∧ a'.Alike b' := by
  rw [h.same, receive_place]
  cases hreceive : a.receive result d with
  | error e => exact .inl ⟨e, rfl, rfl⟩
  | ok a' =>
    refine .inr ⟨a', _, rfl, rfl, ?_⟩
    have hsuits := receive_suits h.suits hreceive
    cases result with
    | none =>
      cases hreceive
      exact h.same ▸ h
    | some id =>
      obtain ⟨temps, rfl, -⟩ := set_ok hreceive
      exact ⟨h.function, hsuits.temps, rfl⟩

end Frame

inductive Progress.Alike : Progress → Progress → Prop
  | running {a b : Frame} {store : Store} : a.Alike b →
      Alike (.running ⟨a, [], store⟩) (.running ⟨b, [], store⟩)
  | ended {r : Except RunError Datum} {store : Store} : Alike (.ended r store) (.ended r store)

inductive Dispatch.Alike : Dispatch α → Dispatch α → Prop
  | refused {e : RunError} : Alike (.refused e) (.refused e)
  | host {f : α} : Alike (.host f) (.host f)
  | broken {cause : Breakdown} : Alike (.broken cause) (.broken cause)
  | frame {a b : Frame} : a.Alike b → Alike (.frame a) (.frame b)

inductive Turn.Alike : Turn → Turn → Prop
  | ended {r : Except RunError Datum} {m : Meter} : Alike (.ended r m) (.ended r m)
  | goes {m : Meter} {a b : Frame} : a.Alike b → Alike (.goes m a) (.goes m b)
  | calls {m : Meter} {name : String} {args : List Datum} {a b : Frame} {result : Option Temp} :
      a.Alike b → Alike (.calls m name args a result) (.calls m name args b result)

section Globals

variable {env env' : Env}

mutual

theorem Env.constant_congr (h : env'.globals = env.globals) (c : Constant) :
    env'.constant c = env.constant c := by
  cases c with
  | int | float | null | undef | functionAddr => rfl
  | array ty cs | vector ty cs | struct ty cs => rw [constant, constant, Env.constants_congr h cs]
  | globalAddr name ty => rw [constant, constant, globalPointer, globalPointer, h]
  | bitCast c ty => rw [constant, constant, Env.constant_congr h c]

theorem Env.constants_congr (h : env'.globals = env.globals) (cs : List Constant) :
    env'.constants cs = env.constants cs := by
  cases cs with
  | nil => rfl
  | cons c cs => rw [constants, constants, Env.constant_congr h c, Env.constants_congr h cs]

end

variable (h : env'.globals = env.globals)

include h

theorem Frame.value_congr (frame : Frame) (v : Value) : frame.value env' v = frame.value env v := by
  cases v with
  | temp id ty => rfl
  | const c => exact Env.constant_congr h c

theorem Frame.compute_congr (frame : Frame) (memory : Memory) (rhs : Rhs) :
    frame.compute env' memory rhs = frame.compute env memory rhs := by
  have haddress (p : Pointer) (indices : List Value) :
      frame.address env' p indices = frame.address env p indices := by
    cases indices <;> simp [address, value_congr h]
  have hcount (n : Option Value) : frame.count env' n = frame.count env n := by
    cases n <;> simp [count, value_congr h]
  cases rhs <;> simp [compute, value_congr h, haddress, hcount]

theorem Frame.callTarget_congr (frame : Frame) (callee : Value) (args : List Value) :
    frame.callTarget env' callee args = frame.callTarget env callee args := by
  have hargs : args.mapM (frame.value env') = args.mapM (frame.value env) := by
    congr 1
    funext v
    exact value_congr h frame v
  simp only [callTarget, value_congr h, hargs]

theorem Env.step_congr {i : Instruction}
    (hplain : ∀ result callee args ty, i ≠ .call result callee args ty) (s : State) :
    env'.step s i = env.step s i := by
  cases i with
  | call result callee args ty => exact absurd rfl (hplain result callee args ty)
  | define id rhs => simp only [step, Frame.compute_congr h]
  | free ptr => simp only [step, Frame.value_congr h]
  | store v ptr => simp only [step, Frame.value_congr h]
  | branchIf condition ifTrue ifFalse => simp only [step, Frame.value_congr h]
  | ret v =>
    cases v with
    | none => rfl
    | some v => simp only [step, Frame.value_congr h]
  | branch | unreachable | comment => rfl

end Globals

namespace Env

variable {env env' : Env} {a b : Frame}

theorem step_callers {i : Instruction} (hplain : ∀ result callee args ty, i ≠ .call result callee args ty)
    {store : Store} {s : State} (h : env.step ⟨a, [], store⟩ i = .running s) : s.callers = [] := by
  rw [step_of_plain hplain] at h
  split at h
  . cases h
    rfl
  . cases h
  . cases h

theorem step_alike (h : a.Alike b) {i : Instruction}
    (hplain : ∀ result callee args ty, i ≠ .call result callee args ty) (store : Store) :
    Progress.Alike (env.step ⟨a, [], store⟩ i) (env.step ⟨b, [], store⟩ i) := by
  -- terminators leave the place where they stand, everything else goes on behind it
  cases hterminator : i.isTerminator with
  | false =>
    have hmirrors : Progress.Mirrors b.function ⟨a.block, a.rest⟩ (env.step ⟨a, [], store⟩ i)
        (env.step ⟨a.place b.function ⟨a.block, a.rest⟩, [], store⟩ i) :=
      step_place h.suits hterminator store
    rw [← h.same] at hmirrors
    generalize hstep : env.step ⟨a, [], store⟩ i = p at hmirrors ⊢
    generalize env.step ⟨b, [], store⟩ i = p' at hmirrors ⊢
    cases hmirrors with
    | ended => exact .ended
    | running hmirrors =>
      have hcallers := step_callers hplain hstep
      cases hmirrors with
      | waiting => simp at hcallers
      | back hsuits =>
        cases step_running hstep with
        | stay temps store plain size => exact .running ⟨h.function, hsuits.temps, rfl⟩
        | jump target leads => simp [Instruction.successors_eq_nil hterminator] at leads
        | back caller callers temps waiting => simp at waiting
  | true =>
    have hvalue (v : Value) : b.value env v = a.value env v := by
      rw [h.same]
      exact Frame.value_place h.suits v
    cases i with
    | ret v =>
      cases v with
      | none => exact .ended
      | some v =>
        simp only [step, hvalue]
        cases a.value env v <;> exact .ended
    | branch target => exact .running (h.jump target)
    | branchIf condition ifTrue ifFalse =>
      simp only [step, hvalue]
      cases a.value env condition with
      | error e => exact .ended
      | ok d =>
        cases hc : d.toInt with
        | error e =>
          simp only [hc, bind, Except.bind]
          exact .ended
        | ok c =>
          simp only [hc, bind, Except.bind]
          exact .running (h.jump _)
    | unreachable =>
      simp only [step, h.function.name]
      exact .ended
    | define | call | free | store | comment => cases hterminator

structure Within (env env' : Env) : Prop where
  globals : env'.globals = env.globals
  hosts : env'.hosts = env.hosts
  functions : ∀ name,
    Option.Rel Function.Alike (env.module.function? name) (env'.module.function? name)
  steps : env.limits.steps ≤ env'.limits.steps
  depth : env.limits.depth ≤ env'.limits.depth

/--
A limit ended a call, and the other environment has a larger one.
-/
def Cut (env env' : Env) (r : Except RunError Datum) : Prop :=
  (env.limits.steps < env'.limits.steps ∧ ∃ n, r = .error (.stepLimit n)) ∨
    (env.limits.depth < env'.limits.depth ∧ ∃ n, r = .error (.stackOverflow n))

def Agree (env env' : Env) (r r' : Except RunError Datum × Meter) : Prop :=
  Cut env env' r.1 ∨ r' = r

theorem dispatchTo_alike (h : env.Within env') (hosts : List (String × α)) (depth : Nat)
    (name : String) (args : List Datum) :
    (env.limits.depth < env'.limits.depth ∧
      env.dispatchTo hosts depth name args = .refused (.stackOverflow env.limits.depth)) ∨
    Dispatch.Alike (env.dispatchTo hosts depth name args) (env'.dispatchTo hosts depth name args) := by
  unfold dispatchTo
  have hfunction := h.functions name
  generalize env.module.function? name = found, env'.module.function? name = found' at hfunction ⊢
  cases hfunction with
  | none => exact .inr .refused
  | @some f g halike =>
    dsimp only
    rw [halike.params, halike.variadic, halike.isDeclaration]
    by_cases hfits :
      if f.variadic then f.params.length ≤ args.length else args.length = f.params.length
    . rw [if_neg (not_not_intro hfits), if_neg (not_not_intro hfits)]
      cases hdeclared : f.isDeclaration with
      | true =>
        rw [if_pos rfl, if_pos rfl]
        cases hosts.lookup name with
        | none => exact .inr .refused
        | some host => exact .inr .host
      | false =>
        rw [if_neg Bool.false_ne_true, if_neg Bool.false_ne_true]
        have hdepth := h.depth
        -- refused by the smaller limit only, the call is one that was cut
        by_cases hlt : env.limits.depth ≤ depth
        . rw [if_pos hlt]
          by_cases heq : env'.limits.depth = env.limits.depth
          . rw [heq, if_pos hlt]
            exact .inr .refused
          . exact .inl ⟨by omega, rfl⟩
        . rw [if_neg hlt]
          by_cases hlt' : env'.limits.depth ≤ depth
          . omega
          . rw [if_neg hlt', halike.nextTemp]
            by_cases hfew : f.nextTemp < f.params.length
            . rw [if_pos hfew, if_pos hfew]
              exact .inr .broken
            . rw [if_neg hfew, if_neg hfew]
              exact .inr (.frame (.enter halike args))
    . rw [if_pos hfits, if_pos hfits]
      exact .inr .refused

theorem turn_alike (h : env.Within env') (m : Meter) (hab : a.Alike b) :
    (env.limits.steps < env'.limits.steps ∧ env.turn m a =
      .ended (.error (.stepLimit env.limits.steps)) { m with steps := m.steps + 1 }) ∨
    Turn.Alike (env.turn m a) (env'.turn m b) := by
  by_cases hnil : a.rest = []
  . rw [turn_nil hnil, turn_nil (hab.rest.trans hnil), hab.function.name, hab.block]
    exact .inr .ended
  . have hnil' : b.rest ≠ [] := fun hb => hnil (hab.rest.symm.trans hb)
    have hsteps := h.steps
    by_cases hlimit : env.limits.steps < m.steps + 1
    . rw [turn_limit hnil hlimit]
      by_cases heq : env'.limits.steps = env.limits.steps
      . rw [turn_limit hnil' (by omega), heq]
        exact .inr .ended
      . exact .inl ⟨by omega, rfl⟩
    . have hlimit' : ¬env'.limits.steps < m.steps + 1 := by omega
      right
      obtain ⟨i, rest, hrest⟩ := List.exists_cons_of_ne_nil hnil
      have hrest' := hab.rest.trans hrest
      have hbehind := hab.behind rest
      by_cases hcall : ∃ result callee args ty, i = .call result callee args ty
      . obtain ⟨result, callee, args, ty, rfl⟩ := hcall
        have htarget : Frame.callTarget env' { b with rest } callee args =
            Frame.callTarget env { a with rest } callee args := by
          rw [Frame.callTarget_congr h.globals, hbehind.same]
          exact Frame.callTarget_place hbehind.suits callee args
        rw [turn_call hrest hlimit, turn_call hrest' hlimit', htarget]
        cases Frame.callTarget env { a with rest } callee args with
        | error e => exact .ended
        | ok target => exact .calls hbehind
      . have hplain : ∀ result callee args ty, i ≠ .call result callee args ty := by
          intro result callee args ty heq
          exact hcall ⟨result, callee, args, ty, heq⟩
        rw [turn_plain hrest hlimit hplain, turn_plain hrest' hlimit' hplain, step_congr h.globals hplain]
        have hstep : Progress.Alike (env.step ⟨{ a with rest }, [], m.store⟩ i) _ :=
          step_alike hbehind hplain m.store
        generalize env.step ⟨{ a with rest }, [], m.store⟩ i = p at hstep ⊢
        generalize env.step ⟨{ b with rest }, [], m.store⟩ i = p' at hstep ⊢
        cases hstep with
        | ended => exact .ended
        | running hab' => exact .goes hab'

theorem call_agree (h : env.Within env') {m : Meter}
    (hexecute : ∀ a b : Frame, a.Alike b → env.Agree env'
      (env.execute { m with depth := m.depth + 1 } a).val
      (env'.execute { m with depth := m.depth + 1 } b).val)
    (name : String) (args : List Datum) :
    env.Agree env' (env.call m name args).val (env'.call m name args).val := by
  rw [call_val, call_val]
  unfold dispatch
  rw [h.hosts]
  obtain ⟨hlt, hrefused⟩ | halike := dispatchTo_alike h env.hosts m.depth name args
  . rw [hrefused]
    exact .inl (.inr ⟨hlt, _, rfl⟩)
  . generalize env.dispatchTo env.hosts m.depth name args = d at halike ⊢
    generalize env'.dispatchTo env.hosts m.depth name args = d' at halike ⊢
    cases halike with
    | refused => exact .inr rfl
    | host => exact .inr rfl
    | broken => exact .inr rfl
    | @frame a b hframe =>
      dsimp only
      obtain hcut | heq := hexecute a b hframe
      . exact .inl hcut
      . right
        rw [heq]

theorem Cut.not_ok {d : Datum} : ¬Cut env env' (.ok d) := by
  rintro (⟨-, n, ⟨⟩⟩ | ⟨-, n, ⟨⟩⟩)

theorem execute_agree (h : env.Within env') (m : Meter) (hab : a.Alike b) :
    env.Agree env' (env.execute m a).val (env'.execute m b).val := by
  -- Both runs go in lockstep, so that the induction is on the steps that the first has left.
  induction hleft : env.limits.steps + 1 - m.steps using Nat.strongRecOn generalizing m a b with
  | ind left ih =>
  have later (m' : Meter) {a' b' : Frame} (hlt : m.steps < m'.steps)
      (hle : m.steps + 1 ≤ env.limits.steps) (hab' : a'.Alike b') :
      env.Agree env' (env.execute m' a').val (env'.execute m' b').val :=
    ih (env.limits.steps + 1 - m'.steps) (by omega) m' hab' rfl
  have hturns := env.turns m a
  rw [execute_val, execute_val]
  obtain ⟨hlt, hlimit⟩ | halike := turn_alike h m hab
  . rw [hlimit]
    exact .inl (.inl ⟨hlt, _, rfl⟩)
  . generalize env.turn m a = turn at hturns halike ⊢
    generalize env'.turn m b = turn' at halike ⊢
    cases halike with
    | ended => exact .inr rfl
    | goes hab' =>
      cases hturns with
      | goes store frame left => exact later _ (Nat.lt_succ_self _) left hab'
    | @calls begun name args a' b' result hab' =>
      cases hturns with
      | calls name args frame result left =>
        have hagree : env.Agree env' (env.call { m with steps := m.steps + 1 } name args).val
            (env'.call { m with steps := m.steps + 1 } name args).val :=
          call_agree h (fun a b => later ⟨m.store, m.steps + 1, m.depth + 1⟩ (Nat.lt_succ_self _) left)
            name args
        -- the call takes steps too, so that what comes after it has fewer left
        have hlt := (env.call { m with steps := m.steps + 1 } name args).property
        dsimp only
        generalize (env.call { m with steps := m.steps + 1 } name args).val = ending at hagree hlt ⊢
        generalize (env'.call { m with steps := m.steps + 1 } name args).val = ending' at hagree ⊢
        obtain ⟨r, after⟩ := ending
        cases r with
        | error e =>
          obtain hcut | rfl := hagree
          . exact .inl hcut
          . exact .inr rfl
        | ok d =>
          obtain hcut | rfl := hagree
          . exact absurd hcut Cut.not_ok
          . dsimp only
            obtain ⟨e, he, he'⟩ | ⟨a'', b'', ha, hb, hab''⟩ := hab'.receive result d
            . rw [he, he']
              exact .inr rfl
            . rw [ha, hb]
              exact later after hlt left hab''

theorem run_agree (h : env.Within env') (store : Store) (name : String) (args : List Datum) :
    Cut env env' (env.run store name args).result ∨
      env'.run store name args = env.run store name args := by
  have hagree : env.Agree env' (env.call ⟨store, 0, 0⟩ name args).val
      (env'.call ⟨store, 0, 0⟩ name args).val :=
    call_agree h (fun a b hab => execute_agree h _ hab) name args
  rw [run_eq_call, run_eq_call]
  obtain hcut | heq := hagree
  . exact .inl hcut
  . right
    rw [heq]

end Env

end ScriptedIR
