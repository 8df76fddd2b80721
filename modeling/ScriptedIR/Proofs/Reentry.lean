import ScriptedIR.Proofs.Agreement

/-!
Hosts that act on the machine that called them. A `HostFunction` only changes the store; a
`HostProgram` may also run functions, register hosts and read globals and the steps, and a run that it
starts counts its steps anew on top of the frames at work. Such runs need not end, so that
`Env.serve` takes fuel. Main statement: larger limits do not change a run that met none of them, if
the hosts let no limit that one of their own runs met go unnoticed.
-/

namespace ScriptedIR

inductive HostAct where
  | done (result : Except RunError Datum)
  | work (change : Store → Store) (next : Store → HostAct)
  | global (name : String) (next : Except RunError Datum → HostAct)
  | steps (next : Nat → HostAct)
  | run (name : String) (args : List Datum) (next : Except RunError Datum → HostAct)
  | register (name : String) (host : List Datum → HostAct) (next : HostAct)

abbrev HostProgram := List Datum → HostAct

def HostFunction.program (f : HostFunction) : HostProgram := fun args =>
  .work (fun store => (f store args).2) fun store => .done (f store args).1

structure Hosted where
  meter : Meter
  hosts : List (String × HostProgram)

namespace Hosted

def enter (s : Hosted) : Hosted := { s with meter := { s.meter with depth := s.meter.depth + 1 } }

def leave (s : Hosted) (result : Except RunError Datum) : Hosted :=
  if broke result then s else { s with meter := { s.meter with depth := s.meter.depth - 1 } }

def restart (s : Hosted) : Hosted := { s with meter := { s.meter with steps := 0 } }

end Hosted

inductive Task where
  | frame (frame : Frame)
  | call (name : String) (args : List Datum)
  | act (act : HostAct)

namespace Env

def serve (env : Env) : Nat → Hosted → Task → Option (Except RunError Datum × Hosted)
  | 0, _, _ => none
  | fuel + 1, s, .frame frame =>
    match env.turn s.meter frame with
    | .ended result meter => some (result, { s with meter })
    | .goes meter frame => env.serve fuel { s with meter } (.frame frame)
    | .calls meter name args frame result =>
      match env.serve fuel { s with meter } (.call name args) with
      | none => none
      | some (.error e, s) => some (.error e, s)
      | some (.ok d, s) =>
        match frame.receive result d with
        | .error e => some (.error e, s)
        | .ok frame => env.serve fuel s (.frame frame)
  | fuel + 1, s, .call name args =>
    match env.dispatchTo s.hosts s.meter.depth name args with
    | .refused e => some (.error e, s)
    | .host host => env.serve fuel s (.act (host args))
    | .broken cause => some (.error (.breakdown cause), s.enter)
    | .frame frame =>
      match env.serve fuel s.enter (.frame frame) with
      | none => none
      | some (result, s) => some (result, s.leave result)
  | fuel + 1, s, .act act =>
    match act with
    | .done result => some (result, s)
    | .work change next =>
      let meter := { s.meter with store := change s.meter.store }
      env.serve fuel { s with meter } (.act (next s.meter.store))
    | .global name next =>
      let value := Machine.readGlobal { env, store := s.meter.store } name
      env.serve fuel s (.act (next value))
    | .steps next => env.serve fuel s (.act (next s.meter.steps))
    | .run name args next =>
      match env.serve fuel s.restart (.call name args) with
      | none => none
      | some (result, s) =>
        if broke result then some (result, s) else env.serve fuel s (.act (next result))
    | .register name host next =>
      env.serve fuel { s with hosts := (name, host) :: s.hosts } (.act next)

def Returns (env : Env) (s : Hosted) (name : String) (args : List Datum)
    (r : Except RunError Datum × Hosted) : Prop :=
  ∃ fuel, env.serve fuel s.restart (.call name args) = some r

variable {env env' : Env}

section Fuel

variable {fuel : Nat} {s : Hosted} {r : Except RunError Datum × Hosted}
  (ih : ∀ {s : Hosted} {task : Task} {r : Except RunError Datum × Hosted},
    env.serve fuel s task = some r → env.serve (fuel + 1) s task = some r)

include ih

theorem serve_frame_succ {frame : Frame} (h : env.serve (fuel + 1) s (.frame frame) = some r) :
    env.serve (fuel + 2) s (.frame frame) = some r := by
  rw [serve] at h ⊢
  cases hturn : env.turn s.meter frame with
  | ended result meter =>
    rw [hturn] at h
    exact h
  | goes meter frame =>
    rw [hturn] at h
    exact ih h
  | calls meter name args frame result =>
    simp only [hturn] at h ⊢
    cases hcall : env.serve fuel { s with meter } (.call name args) with
    | none =>
      rw [hcall] at h
      cases h
    | some called =>
      rw [ih hcall]
      rw [hcall] at h
      obtain ⟨e | d, s⟩ := called
      . exact h
      . dsimp only at h ⊢
        cases hreceive : frame.receive result d with
        | error e =>
          rw [hreceive] at h
          exact h
        | ok frame =>
          rw [hreceive] at h
          exact ih h

theorem serve_call_succ {name : String} {args : List Datum}
    (h : env.serve (fuel + 1) s (.call name args) = some r) :
    env.serve (fuel + 2) s (.call name args) = some r := by
  rw [serve] at h ⊢
  cases hdispatch : env.dispatchTo s.hosts s.meter.depth name args with
  | refused e | broken cause =>
    rw [hdispatch] at h
    exact h
  | host host =>
    rw [hdispatch] at h
    exact ih h
  | frame frame =>
    simp only [hdispatch] at h ⊢
    cases hframe : env.serve fuel s.enter (.frame frame) with
    | none =>
      rw [hframe] at h
      cases h
    | some ended =>
      rw [ih hframe]
      rw [hframe] at h
      exact h

theorem serve_run_succ {name : String} {args : List Datum} {next : Except RunError Datum → HostAct}
    (h : env.serve (fuel + 1) s (.act (.run name args next)) = some r) :
    env.serve (fuel + 2) s (.act (.run name args next)) = some r := by
  simp only [serve] at h
  rw [serve]
  cases hcall : env.serve fuel s.restart (.call name args) with
  | none =>
    rw [hcall] at h
    cases h
  | some ended =>
    rw [ih hcall]
    simp only [hcall] at h ⊢
    cases hbroke : broke ended.1 with
    | true =>
      rw [hbroke] at h
      exact h
    | false =>
      rw [hbroke] at h
      exact ih h

end Fuel

theorem serve_succ {fuel : Nat} {s : Hosted} {task : Task} {r : Except RunError Datum × Hosted}
    (h : env.serve fuel s task = some r) : env.serve (fuel + 1) s task = some r := by
  induction fuel generalizing s task r with
  | zero => cases h
  | succ fuel ih =>
    cases task with
    | frame frame => exact serve_frame_succ ih h
    | call name args => exact serve_call_succ ih h
    | act act =>
      cases act with
      | done result => exact h
      | work | global | steps | register => exact ih h
      | run name args next => exact serve_run_succ ih h

theorem serve_le {fuel fuel' : Nat} (hle : fuel ≤ fuel') {s : Hosted} {task : Task}
    {r : Except RunError Datum × Hosted} (h : env.serve fuel s task = some r) :
    env.serve fuel' s task = some r := by
  induction hle with
  | refl => exact h
  | step _ ih => exact serve_succ ih

theorem Returns.unique {s : Hosted} {name : String} {args : List Datum}
    {r r' : Except RunError Datum × Hosted} (h : env.Returns s name args r)
    (h' : env.Returns s name args r') : r' = r := by
  obtain ⟨fuel, h⟩ := h
  obtain ⟨fuel', h'⟩ := h'
  have hmax := serve_le (Nat.le_max_left fuel fuel') h
  rw [serve_le (Nat.le_max_right fuel fuel') h'] at hmax
  exact Option.some.inj hmax

end Env

def RunError.isLimit : RunError → Bool
  | stepLimit _ | stackOverflow _ => true
  | _ => false

inductive HostAct.GivesUp : HostAct → Prop
  | done {e : RunError} : e.isLimit → GivesUp (.done (.error e))
  | work {change : Store → Store} {next : Store → HostAct} :
      (∀ store, (next store).GivesUp) → GivesUp (.work change next)
  | global {name : String} {next : Except RunError Datum → HostAct} :
      (∀ value, (next value).GivesUp) → GivesUp (.global name next)
  | steps {next : Nat → HostAct} : (∀ n, (next n).GivesUp) → GivesUp (.steps next)
  | register {name : String} {host : HostProgram} {next : HostAct} : next.GivesUp →
      GivesUp (.register name host next)

/--
Acts that heed the limits: when a run meets one, the host gives up. The hosts that are registered on
the way are of the same kind.
-/
inductive HostAct.Heeds : HostAct → Prop
  | done {result : Except RunError Datum} : Heeds (.done result)
  | work {change : Store → Store} {next : Store → HostAct} :
      (∀ store, (next store).Heeds) → Heeds (.work change next)
  | global {name : String} {next : Except RunError Datum → HostAct} :
      (∀ value, (next value).Heeds) → Heeds (.global name next)
  | steps {next : Nat → HostAct} : (∀ n, (next n).Heeds) → Heeds (.steps next)
  | run {name : String} {args : List Datum} {next : Except RunError Datum → HostAct} :
      (∀ result, (next result).Heeds) → (∀ e, e.isLimit → (next (.error e)).GivesUp) →
      Heeds (.run name args next)
  | register {name : String} {host : HostProgram} {next : HostAct} :
      (∀ args, (host args).Heeds) → next.Heeds → Heeds (.register name host next)

theorem HostFunction.program_heeds (f : HostFunction) (args : List Datum) :
    HostAct.Heeds (f.program args) := .work fun _ => .done

def Hosted.Heeding (s : Hosted) : Prop :=
  ∀ name host, s.hosts.lookup name = some host → ∀ args, (host args).Heeds

theorem Hosted.Heeding.register {s : Hosted} (h : s.Heeding) (name : String) {host : HostProgram}
    (hheeds : ∀ args, (host args).Heeds) :
    Hosted.Heeding { s with hosts := (name, host) :: s.hosts } := by
  intro name' host' hlookup
  rw [List.lookup_cons] at hlookup
  split at hlookup
  . cases hlookup
    exact hheeds
  . exact h name' host' hlookup

inductive Task.Alike : Task → Task → Prop
  | frame {a b : Frame} : a.Alike b → Alike (.frame a) (.frame b)
  | call {name : String} {args : List Datum} : Alike (.call name args) (.call name args)
  | act {act : HostAct} : act.Heeds → Alike (.act act) (.act act)

def Limited (result : Except RunError Datum) : Prop := ∃ e, result = .error e ∧ e.isLimit

namespace Env

variable {env env' : Env}

theorem serve_givesUp {fuel : Nat} {s : Hosted} {act : HostAct}
    {r : Except RunError Datum × Hosted} (hact : act.GivesUp)
    (h : env.serve fuel s (.act act) = some r) : Limited r.1 := by
  induction fuel generalizing s act with
  | zero => cases h
  | succ fuel ih =>
    cases hact with
    | done hlimit =>
      cases h
      exact ⟨_, rfl, hlimit⟩
    | work hnext | global hnext | steps hnext => exact ih (hnext _) h
    | register hnext => exact ih hnext h

def Settles (env' : Env) (fuel : Nat) (s : Hosted) (task : Task)
    (r : Except RunError Datum × Hosted) : Prop :=
  Limited r.1 ∨ env'.serve fuel s task = some r ∧ r.2.Heeding

section Agree

variable {fuel : Nat} {s : Hosted} {r : Except RunError Datum × Hosted}
  (ih : ∀ {s : Hosted} {task task' : Task} {r : Except RunError Datum × Hosted}, task.Alike task' →
    s.Heeding → env.serve fuel s task = some r → env'.Settles fuel s task' r)

include ih

theorem serve_frame_agree (hwithin : env.Within env') {a b : Frame} (hab : a.Alike b)
    (hs : s.Heeding) (h : env.serve (fuel + 1) s (.frame a) = some r) :
    env'.Settles (fuel + 1) s (.frame b) r := by
  rw [serve] at h
  obtain ⟨-, hlimit⟩ | halike := turn_alike hwithin s.meter hab
  . rw [hlimit] at h
    cases h
    exact .inl ⟨_, rfl, rfl⟩
  . unfold Settles
    rw [serve]
    generalize env.turn s.meter a = turn at halike h
    generalize env'.turn s.meter b = turn' at halike ⊢
    cases halike with
    | ended =>
      cases h
      exact .inr ⟨rfl, hs⟩
    | goes hab => exact ih (.frame hab) hs h
    | @calls meter name args a b result hab =>
      dsimp only at h ⊢
      cases hcall : env.serve fuel { s with meter } (.call name args) with
      | none =>
        rw [hcall] at h
        cases h
      | some called =>
        have hagree := ih .call (s := { s with meter }) hs hcall
        rw [hcall] at h
        obtain ⟨e | d, s⟩ := called
        . cases h
          obtain hlimited | ⟨heq, hs⟩ := hagree
          . exact .inl hlimited
          . rw [heq]
            exact .inr ⟨rfl, hs⟩
        . obtain ⟨e, ⟨⟩, -⟩ | ⟨heq, hs⟩ := hagree
          rw [heq]
          dsimp only at h ⊢
          obtain ⟨e, he, he'⟩ | ⟨a, b, ha, hb, hab⟩ := hab.receive result d
          . rw [he] at h
            rw [he']
            cases h
            exact .inr ⟨rfl, hs⟩
          . rw [ha] at h
            rw [hb]
            exact ih (.frame hab) hs h

theorem serve_call_agree (hwithin : env.Within env') {name : String} {args : List Datum}
    (hs : s.Heeding) (h : env.serve (fuel + 1) s (.call name args) = some r) :
    env'.Settles (fuel + 1) s (.call name args) r := by
  rw [serve] at h
  have hcase := env.dispatches s.hosts s.meter.depth name args
  obtain ⟨-, hrefused⟩ | halike := dispatchTo_alike hwithin s.hosts s.meter.depth name args
  . rw [hrefused] at h
    cases h
    exact .inl ⟨_, rfl, rfl⟩
  . unfold Settles
    rw [serve]
    generalize env.dispatchTo s.hosts s.meter.depth name args = d at hcase halike h
    generalize env'.dispatchTo s.hosts s.meter.depth name args = d' at halike ⊢
    cases halike with
    | refused | broken =>
      cases h
      exact .inr ⟨rfl, hs⟩
    | host =>
      cases hcase with
      | host _ found => exact ih (.act (hs name _ found args)) hs h
    | @frame a b hab =>
      dsimp only at h ⊢
      cases hframe : env.serve fuel s.enter (.frame a) with
      | none =>
        rw [hframe] at h
        cases h
      | some ended =>
        have hagree := ih (.frame hab) (s := s.enter) hs hframe
        rw [hframe] at h
        cases h
        obtain hlimited | ⟨heq, hs⟩ := hagree
        . exact .inl hlimited
        . rw [heq]
          refine .inr ⟨rfl, ?_⟩
          dsimp only [Hosted.leave]
          split <;> exact hs

theorem serve_run_agree {name : String} {args : List Datum}
    {next : Except RunError Datum → HostAct} (hnext : ∀ result, (next result).Heeds)
    (hgivesUp : ∀ e, e.isLimit → (next (.error e)).GivesUp) (hs : s.Heeding)
    (h : env.serve (fuel + 1) s (.act (.run name args next)) = some r) :
    env'.Settles (fuel + 1) s (.act (.run name args next)) r := by
  simp only [serve] at h
  unfold Settles
  rw [serve]
  cases hcall : env.serve fuel s.restart (.call name args) with
  | none =>
    rw [hcall] at h
    cases h
  | some ended =>
    have hagree := ih .call (s := s.restart) hs hcall
    simp only [hcall] at h
    obtain ⟨e, he, hlimit⟩ | ⟨heq, hs⟩ := hagree
    . -- the run met a limit, which the host does not conceal
      have hbroke : broke ended.1 = false := by
        rw [he]
        cases e <;> first | rfl | cases hlimit
      rw [hbroke, he] at h
      exact .inl (serve_givesUp (hgivesUp e hlimit) h)
    . simp only [heq]
      cases hbroke : broke ended.1 with
      | true =>
        rw [hbroke] at h
        cases h
        exact .inr ⟨rfl, hs⟩
      | false =>
        rw [hbroke] at h
        exact ih (.act (hnext _)) hs h

end Agree

theorem serve_agree (hwithin : env.Within env') {fuel : Nat} {s : Hosted} {task task' : Task}
    {r : Except RunError Datum × Hosted} (htask : task.Alike task') (hs : s.Heeding)
    (h : env.serve fuel s task = some r) : env'.Settles fuel s task' r := by
  induction fuel generalizing s task task' r with
  | zero => cases h
  | succ fuel ih =>
    cases htask with
    | frame hab => exact serve_frame_agree ih hwithin hab hs h
    | call => exact serve_call_agree ih hwithin hs h
    | act hact =>
      cases hact with
      | done =>
        cases h
        exact .inr ⟨rfl, hs⟩
      | work hnext => exact ih (.act (hnext _)) (s := ⟨_, _⟩) hs h
      | steps hnext => exact ih (.act (hnext _)) hs h
      | @global name next hnext =>
        have hread (store : Store) : Machine.readGlobal { env := env', store } name =
            Machine.readGlobal { env, store } name := by
          simp only [Machine.readGlobal, globalPointer, hwithin.globals]
        unfold Settles
        simp only [serve, hread]
        exact ih (.act (hnext _)) hs h
      | register hhost hnext => exact ih (.act hnext) (hs.register _ hhost) h
      | run hnext hgivesUp => exact serve_run_agree ih hnext hgivesUp hs h

def programs (env : Env) : List (String × HostProgram) :=
  env.hosts.map fun (name, f) => (name, f.program)

theorem lookup_programs (hosts : List (String × HostFunction)) (name : String) :
    (hosts.map fun (name, f) => (name, HostFunction.program f)).lookup name =
      (hosts.lookup name).map HostFunction.program := by
  induction hosts with
  | nil => rfl
  | cons host hosts ih =>
    rw [List.map_cons, List.lookup_cons, List.lookup_cons, ih]
    cases name == host.1 <;> rfl

theorem dispatchTo_programs (depth : Nat) (name : String) (args : List Datum) :
    env.dispatchTo env.programs depth name args =
      match env.dispatch depth name args with
      | .refused e => .refused e
      | .host f => .host f.program
      | .broken cause => .broken cause
      | .frame frame => .frame frame := by
  unfold dispatch dispatchTo programs
  simp only [lookup_programs]
  cases env.module.function? name with
  | none => rfl
  | some f =>
    dsimp only
    by_cases hfits :
      if f.variadic then f.params.length ≤ args.length else args.length = f.params.length
    . simp only [if_neg (not_not_intro hfits)]
      cases f.isDeclaration with
      | true => cases env.hosts.lookup name <;> rfl
      | false =>
        simp only [Bool.false_eq_true, if_false]
        split
        . rfl
        . split <;> rfl
    . simp only [if_pos hfits]

def Serves (env : Env) (m : Meter) (task : Task) (r : Except RunError Datum × Meter) : Prop :=
  ∃ fuel, env.serve fuel ⟨m, env.programs⟩ task = some (r.1, ⟨r.2, env.programs⟩)

theorem call_serves {m : Meter}
    (hexecute : ∀ frame, env.Serves { m with depth := m.depth + 1 } (.frame frame)
      (env.execute { m with depth := m.depth + 1 } frame).val)
    (name : String) (args : List Datum) :
    env.Serves m (.call name args) (env.call m name args).val := by
  have hdispatch := env.dispatchTo_programs m.depth name args
  rw [call_val]
  unfold Serves
  cases hcase : env.dispatch m.depth name args with
  | refused e | broken cause =>
    simp only [hcase] at hdispatch
    exact ⟨1, by simp only [serve, hdispatch, Hosted.enter]⟩
  | host f =>
    simp only [hcase] at hdispatch
    refine ⟨3, ?_⟩
    simp only [serve, hdispatch, HostFunction.program]
  | frame frame =>
    simp only [hcase] at hdispatch
    obtain ⟨fuel, hframe⟩ := hexecute frame
    refine ⟨fuel + 1, ?_⟩
    simp only [serve, hdispatch, Hosted.enter, hframe, Hosted.leave]
    split <;> rfl

theorem execute_serves (m : Meter) (frame : Frame) :
    env.Serves m (.frame frame) (env.execute m frame).val := by
  -- every turn that goes on has counted a step, so the steps that are left become fewer
  induction hleft : env.limits.steps + 1 - m.steps using Nat.strongRecOn generalizing m frame with
  | ind left ih =>
  have later (m' : Meter) (frame' : Frame) (hlt : m.steps < m'.steps)
      (hle : m.steps + 1 ≤ env.limits.steps) :
      env.Serves m' (.frame frame') (env.execute m' frame').val :=
    ih (env.limits.steps + 1 - m'.steps) (by omega) m' frame' rfl
  have hturns := env.turns m frame
  rw [execute_val]
  unfold Serves
  generalize hturn : env.turn m frame = turn at hturns ⊢
  cases hturns with
  | nil | limit | ended =>
    refine ⟨1, ?_⟩
    simp only [serve, hturn]
  | goes store frame' left =>
    obtain ⟨fuel, hfuel⟩ := later ⟨store, m.steps + 1, m.depth⟩ frame' (Nat.lt_succ_self _) left
    refine ⟨fuel + 1, ?_⟩
    simp only [serve, hturn, hfuel]
  | calls name args frame' result left =>
    have hcall : env.Serves { m with steps := m.steps + 1 } (.call name args)
        (env.call { m with steps := m.steps + 1 } name args).val :=
      call_serves
        (fun frame => later ⟨m.store, m.steps + 1, m.depth + 1⟩ frame (Nat.lt_succ_self _) left)
        name args
    have hlt := (env.call { m with steps := m.steps + 1 } name args).property
    dsimp only
    generalize (env.call { m with steps := m.steps + 1 } name args).val = ending at hcall hlt ⊢
    obtain ⟨result' , after⟩ := ending
    obtain ⟨fuel, hfuel⟩ := hcall
    cases result' with
    | error e =>
      refine ⟨fuel + 1, ?_⟩
      simp only [serve, hturn, hfuel]
    | ok d =>
      cases hreceive : frame'.receive result d with
      | error e =>
        refine ⟨fuel + 1, ?_⟩
        simp only [serve, hturn, hfuel, hreceive]
      | ok frame'' =>
        obtain ⟨fuel', hfuel'⟩ := later after frame'' hlt left
        refine ⟨max fuel fuel' + 1, ?_⟩
        have hfuel := serve_le (Nat.le_max_left fuel fuel') hfuel
        have hfuel' := serve_le (Nat.le_max_right fuel fuel') hfuel'
        simp only [serve, hturn, hfuel, hreceive, hfuel']

theorem returns_iff_call (m : Meter) (name : String) (args : List Datum)
    (r : Except RunError Datum × Hosted) :
    env.Returns ⟨m, env.programs⟩ name args r ↔
      r = ((env.call { m with steps := 0 } name args).val.1,
        ⟨(env.call { m with steps := 0 } name args).val.2, env.programs⟩) := by
  have hreturns : env.Returns ⟨m, env.programs⟩ name args
      ((env.call { m with steps := 0 } name args).val.1,
        ⟨(env.call { m with steps := 0 } name args).val.2, env.programs⟩) :=
    call_serves (fun frame => execute_serves _ frame) name args
  constructor
  . exact hreturns.unique
  . rintro rfl
    exact hreturns

theorem programs_heeding (m : Meter) : Hosted.Heeding ⟨m, env.programs⟩ := by
  intro name host hlookup args
  rw [programs, lookup_programs, Option.map_eq_some_iff] at hlookup
  obtain ⟨f, -, rfl⟩ := hlookup
  exact f.program_heeds args

theorem within_limits (env : Env) {limits : Limits} (hsteps : env.limits.steps ≤ limits.steps)
    (hdepth : env.limits.depth ≤ limits.depth) : env.Within { env with limits } where
  globals := rfl
  hosts := rfl
  functions name := by
    dsimp only
    cases env.module.function? name with
    | none => exact .none
    | some f => exact .some (.refl f)
  steps := hsteps
  depth := hdepth

end Env

def Machine.withLimits (m : Machine) (limits : Limits) : Machine :=
  { m with env := { m.env with limits } }

/--
Limits only cut runs short. A run of the machine that ends otherwise, with a value or with any other
error, ends in the same way under larger limits: the result, the memory, the output and the number of
steps are the same, and nothing is left of the larger limits but themselves. The same holds of runs
from every state of a machine whose hosts act on it, if they heed the limits.
-/
theorem Machine.limits_only_cut (m : Machine) (limits : Limits)
    (hsteps : m.env.limits.steps ≤ limits.steps) (hdepth : m.env.limits.depth ≤ limits.depth)
    (name : String) (args : List Datum) :
    (¬Limited (m.run name args).1 →
      (m.withLimits limits).run name args =
        ((m.run name args).1, (m.run name args).2.withLimits limits)) ∧
    ∀ (s after : Hosted) (result : Except RunError Datum), s.Heeding →
      m.env.Returns s name args (result, after) → ¬Limited result →
      ∀ r, (m.withLimits limits).env.Returns s name args r ↔ r = (result, after) := by
  have hhosted (s after : Hosted) (result : Except RunError Datum) (hheeding : s.Heeding)
      (hreturns : m.env.Returns s name args (result, after)) (hfree : ¬Limited result)
      (r : Except RunError Datum × Hosted) :
      (m.withLimits limits).env.Returns s name args r ↔ r = (result, after) := by
    obtain ⟨fuel, hfuel⟩ := hreturns
    obtain hlimited | ⟨hagree, -⟩ :=
      Env.serve_agree (m.env.within_limits hsteps hdepth) .call (s := s.restart) hheeding hfuel
    . exact absurd hlimited hfree
    . have hreturns : (m.withLimits limits).env.Returns s name args (result, after) := ⟨fuel, hagree⟩
      constructor
      . exact hreturns.unique
      . rintro rfl
        exact hreturns
  refine ⟨?_, hhosted⟩
  intro hfree
  have hrun : Env.run { m.env with limits } m.store name args = m.env.run m.store name args := by
    rw [Machine.run, Env.run_eq_call] at hfree
    rw [Env.run_eq_call, Env.run_eq_call]
    have hreturns := (m.env.returns_iff_call ⟨m.store, 0, 0⟩ name args _).mpr rfl
    have hreturns' := ((m.withLimits limits).env.returns_iff_call ⟨m.store, 0, 0⟩ name args _).mpr rfl
    have hsame := (hhosted _ _ _ (m.env.programs_heeding _) hreturns hfree _).mp hreturns'
    simp only [Prod.mk.injEq, Hosted.mk.injEq] at hsame
    dsimp only [Machine.withLimits] at hsame ⊢
    rw [hsame.1, hsame.2.1]
  simp only [Machine.run, Machine.withLimits, hrun]

def Module.attended : Module where
  name := "m"
  functions := [
    { name := "leaf", result := .i32, params := [], variadic := false, nextBlock := 1
      blocks := [⟨0, "entry", [.ret (some (.ofInt .i32 7))]⟩] },
    { name := "ask", result := .i32, params := [], variadic := false },
    { name := "main", result := .i32, params := [], variadic := false, nextTemp := 1, nextBlock := 1
      blocks := [⟨0, "entry", [
        .call (some 0) (.const (.functionAddr "ask" (.pointer (.function .i32 [] false)))) [] .i32,
        .ret (some (.temp 0 .i32))]⟩] }]

def HostProgram.relay : HostProgram := fun _ => .run "leaf" [] .done

theorem Machine.relay_limits_only_cut :
    let m : Machine := { env := { module := .attended, limits := { steps := 3, depth := 2 } } }
    let s : Hosted := ⟨⟨{}, 0, 0⟩, [("ask", .relay)]⟩
    ∀ r, (m.withLimits {}).env.Returns s "main" [] r ↔ r = (.ok (.int 7), ⟨⟨{}, 2, 0⟩, s.hosts⟩) := by
  intro m s
  have hheeding : s.Heeding := by
    intro name host hlookup args
    rw [List.lookup_cons] at hlookup
    split at hlookup
    . cases hlookup
      exact .run (fun _ => .done) fun e hlimit => .done hlimit
    . cases hlookup
  have hreturns : m.env.Returns s "main" [] (.ok (.int 7), ⟨⟨{}, 2, 0⟩, s.hosts⟩) := ⟨9, rfl⟩
  exact (m.limits_only_cut {} (by decide) (by decide) "main" []).2 s _ _ hheeding hreturns
    (by rintro ⟨e, ⟨⟩, -⟩)

/--
A host that answers whether another function can be run. It reads no counter, and yet tells the depth
that is left.
-/
def HostProgram.probe : HostProgram := fun _ => .run "leaf" [] fun
  | .ok _ => .done (.ok (.int 1))
  | .error _ => .done (.ok (.int 0))

theorem Machine.probe_sees_limits :
    let m : Machine := { env := { module := .attended, limits := { depth := 1 } } }
    let s : Hosted := ⟨⟨{}, 0, 0⟩, [("ask", .probe)]⟩
    m.env.Returns s "main" [] (.ok (.int 0), ⟨⟨{}, 1, 0⟩, s.hosts⟩) ∧
      (m.withLimits { depth := 2 }).env.Returns s "main" [] (.ok (.int 1), ⟨⟨{}, 2, 0⟩, s.hosts⟩) :=
  ⟨⟨9, rfl⟩, ⟨9, rfl⟩⟩

end ScriptedIR
