import ScriptedIR.Proofs.Agreement
import ScriptedIR.Proofs.Realization
import ScriptedIR.Proofs.Verified

/-!
How runs end. A run that is not cut short by the limit on its steps ends as the machine does without
one, and the machine ends in the same way under every limit that is large enough. Whatever it calls, it
does not run past the end of a verified function.
-/

namespace ScriptedIR

def Function.Takes (f : Function) (args : List Datum) : Prop :=
  if f.variadic then f.params.length ≤ args.length else args.length = f.params.length

def State.bottom (s : State) : Frame := s.callers.getLast?.elim s.frame Caller.frame

namespace State

variable {frame : Frame} {caller : Caller} {callers : List Caller} {store : Store}

@[simp]
theorem bottom_nil : bottom ⟨frame, [], store⟩ = frame := rfl

theorem bottom_cons :
    bottom ⟨frame, caller :: callers, store⟩ = bottom ⟨caller.frame, callers, store⟩ := by
  cases callers <;> simp [bottom, List.getLast?_cons]

end State

namespace Env

variable {env : Env} {s t : State} {r : Except RunError Datum} {store : Store} {n : Nat}

theorem next_bottom (hs : s.bottom.Verified) (h : env.next s = .running t) : t.bottom.Verified := by
  obtain ⟨i, rest, hrest⟩ := List.exists_cons_of_ne_nil (rest_ne_nil_of_next h)
  rw [next_of_cons hrest] at h
  obtain ⟨frame, callers, store⟩ := s
  cases step_running h with
  | stay temps store plain size =>
    cases callers with
    | nil => exact (Frame.Verified.behind hs hrest plain).of_temps temps
    | cons caller callers =>
      rw [State.bottom_cons] at hs ⊢
      exact hs
  | enter name f args result plain found defined room =>
    -- whatever was called is on top, and may run past the end of its code
    rw [State.bottom_cons]
    cases callers with
    | nil => exact Frame.Verified.behind hs hrest plain
    | cons caller callers =>
      rw [State.bottom_cons] at hs ⊢
      exact hs
  | back caller callers temps waiting size =>
    cases waiting
    rw [State.bottom_cons] at hs
    cases callers with
    | nil => exact Frame.Verified.of_temps hs temps
    | cons caller callers =>
      rw [State.bottom_cons] at hs ⊢
      exact hs
  | jump target leads =>
    cases callers with
    | nil => exact Frame.Verified.of_jump hs.code (Frame.Verified.targets hs hrest leads)
    | cons caller callers =>
      rw [State.bottom_cons] at hs ⊢
      exact hs

def withSteps (env : Env) (steps : Nat) : Env := { env with limits := { env.limits with steps } }

theorem next_withSteps (steps : Nat) (s : State) : (env.withSteps steps).next s = env.next s := by
  have hglobals : (env.withSteps steps).globals = env.globals := rfl
  unfold next
  split
  . rfl
  . next i rest _ =>
    by_cases hcall : ∃ result callee args ty, i = .call result callee args ty
    . obtain ⟨result, callee, args, ty, rfl⟩ := hcall
      rw [step_call, step_call, Frame.callTarget_congr hglobals]
      rfl
    . exact step_congr hglobals (fun result callee args ty hi => hcall ⟨result, callee, args, ty, hi⟩) _

theorem iterate_withSteps (steps n : Nat) (s : State) :
    (env.withSteps steps).iterate n s = env.iterate n s := by
  induction n generalizing s with
  | zero => rfl
  | succ n ih => simp only [iterate, next_withSteps, ih]

theorem runFor_ends (fuel steps : Nat) (s : State) :
    (∃ t, env.iterate fuel s = .running t ∧
      (env.runFor fuel steps s).result = .error (.stepLimit env.limits.steps)) ∨
    env.Ends s (env.runFor fuel steps s).result (env.runFor fuel steps s).store := by
  rcases env.runFor_cases fuel steps s with ⟨t, ht, -, hrun⟩ | ⟨n, t, -, ht, hrest, hrun⟩ |
    ⟨n, t, result, store, -, ht, -, hend, hrun⟩
  . exact .inl ⟨t, ht, by rw [hrun]⟩
  . rw [hrun]
    have hend : env.next t = .ended (.error (.missingTerminator t.frame.function.name t.frame.block))
        t.store := by
      rw [next, hrest]
    exact .inr (Goes.ends ⟨n, Nat.le_refl n, ht⟩ (.of_next hend))
  . rw [hrun]
    exact .inr (Goes.ends ⟨n, Nat.le_refl n, ht⟩ (.of_next hend))

theorem runFor_of_ended (h : env.iterate n s = .ended r store) {fuel : Nat} (hle : n ≤ fuel)
    (steps : Nat) :
    (env.runFor fuel steps s).result = r ∧ (env.runFor fuel steps s).store = store := by
  rcases env.runFor_ends fuel steps s with ⟨t, ht, -⟩ | hends
  . -- the machine would still be running after it has ended
    have hended := iterate_ended h (fuel - n)
    rw [Nat.add_sub_cancel' hle, ht] at hended
    cases hended
  . exact hends.unique ⟨n, h⟩

theorem dispatch_defined {name : String} {f : Function} {args : List Datum}
    (hf : env.module.function? name = some f) (hargs : f.Takes args)
    (hdefined : f.isDeclaration = false) (hdepth : 0 < env.limits.depth) :
    env.dispatch 0 name args = if f.nextTemp < f.params.length then .broken (.slots f.nextTemp)
      else .frame (.enter f args) := by
  unfold Function.Takes at hargs
  unfold dispatch dispatchTo
  simp only [hf]
  rw [if_neg (not_not_intro hargs), if_neg (by simp [hdefined]), if_neg (Nat.not_le_of_gt hdepth)]

theorem run_eq_runFor {name : String} {f : Function} {args : List Datum}
    (hf : env.module.function? name = some f) (hargs : f.Takes args)
    (hdefined : f.isDeclaration = false) (hslots : f.params.length ≤ f.nextTemp)
    (hdepth : 0 < env.limits.depth) (store : Store) :
    env.run store name args = env.runFor env.limits.steps 0 ⟨.enter f args, [], store⟩ := by
  rw [run, dispatch_defined hf hargs hdefined hdepth, if_neg (Nat.not_lt_of_ge hslots)]

end Env

end ScriptedIR
