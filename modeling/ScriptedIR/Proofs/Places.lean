import ScriptedIR.Proofs.Accounts
import ScriptedIR.Proofs.Blocks

/-!
Frames at other places. What an instruction does to a frame, and what a call that waits there comes to,
depends on its temporaries and on the name of its function only: not on the block or on what is left of
it, nor on the other code of the function.
-/

namespace ScriptedIR

structure Spot where
  block : BlockId
  rest : List Instruction

namespace Function

variable {f : Function} {frame : Frame}

def start (f : Function) (id : BlockId) : Spot := ⟨id, (f.code? id).getD []⟩

structure Suits (f : Function) (frame : Frame) : Prop where
  name : frame.function.name = f.name
  temps : f.nextTemp ≤ frame.temps.size

theorem Suits.of_temps (h : f.Suits frame) {temps : Array (Option Datum)}
    (hsize : temps.size = frame.temps.size) : f.Suits { frame with temps } :=
  ⟨h.name, hsize ▸ h.temps⟩

end Function

namespace Frame

variable {f : Function} {p : Spot} {frame : Frame} {env : Env}

def place (f : Function) (p : Spot) (frame : Frame) : Frame :=
  { frame with function := f, block := p.block, rest := p.rest }

theorem jump_place (id : BlockId) : (frame.place f p).jump id = frame.place f (f.start id) := by
  unfold jump place Function.start Function.code?
  cases f.block? id <;> rfl

theorem set_place (id : Temp) (d : Datum) :
    (frame.place f p).set id d = (frame.set id d).map (place f p) := by
  unfold set place
  by_cases h : id < frame.temps.size
  . rw [if_pos h, if_pos h]
    rfl
  . rw [if_neg h, if_neg h]
    rfl

theorem receive_place (result : Option Temp) (d : Datum) :
    (frame.place f p).receive result d = (frame.receive result d).map (place f p) := by
  cases result with
  | none => rfl
  | some id => exact set_place id d

variable (h : f.Suits frame)

include h

theorem value_place (v : Value) : (frame.place f p).value env v = frame.value env v := by
  cases v with
  | const c => rfl
  | temp id ty => simp [value, place, h.name]

theorem address_place (q : Pointer) (indices : List Value) :
    (frame.place f p).address env q indices = frame.address env q indices := by
  cases indices with
  | nil => rfl
  | cons i indices => simp [address, value_place h]

theorem count_place (n : Option Value) : (frame.place f p).count env n = frame.count env n := by
  cases n with
  | none => rfl
  | some v => simp [count, value_place h]

theorem compute_place (memory : Memory) (rhs : Rhs) :
    (frame.place f p).compute env memory rhs = frame.compute env memory rhs := by
  have hname : (frame.place f p).function.name = frame.function.name := h.name.symm
  cases rhs <;> simp [compute, value_place h, address_place h, count_place h, hname]

theorem callTarget_place (callee : Value) (args : List Value) :
    (frame.place f p).callTarget env callee args = frame.callTarget env callee args := by
  have hargs : args.mapM ((frame.place f p).value env) = args.mapM (frame.value env) := by
    congr 1
    funext v
    exact value_place h v
  simp only [callTarget, value_place h, hargs]

theorem receive_suits {t : Frame} {result : Option Temp} {d : Datum}
    (hreceive : frame.receive result d = .ok t) : f.Suits t := by
  cases result with
  | none =>
    cases hreceive
    exact h
  | some id =>
    obtain ⟨temps, rfl, hsize⟩ := set_ok hreceive
    exact h.of_temps hsize

end Frame

inductive State.Mirrors (f : Function) (p : Spot) : State → State → Prop
  | back {frame : Frame} {store : Store} : f.Suits frame →
      Mirrors f p ⟨frame, [], store⟩ ⟨frame.place f p, [], store⟩
  | waiting {top frame : Frame} {callers : List Caller} {result : Option Temp} {store : Store} :
      f.Suits frame →
      Mirrors f p ⟨top, callers ++ [⟨frame, result⟩], store⟩
        ⟨top, callers ++ [⟨frame.place f p, result⟩], store⟩

inductive Progress.Mirrors (f : Function) (p : Spot) : Progress → Progress → Prop
  | running {s t : State} : s.Mirrors f p t → Mirrors f p (.running s) (.running t)
  | ended {result : Except RunError Datum} {store : Store} :
      Mirrors f p (.ended result store) (.ended result store)

namespace Env

open Progress (Mirrors)

variable {env : Env} {f : Function} {p : Spot} {frame : Frame} (h : f.Suits frame)

include h

theorem resume_mirrors (result : Option Temp) (d : Datum) (store : Store) :
    Mirrors f p (resume frame result d [] store) (resume (frame.place f p) result d [] store) := by
  rw [resume_eq_receive, resume_eq_receive, Frame.receive_place]
  cases hreceive : frame.receive result d with
  | error e => exact .ended
  | ok t => exact .running (.back (Frame.receive_suits h hreceive))

theorem leave_mirrors (top : Frame) (callers : List Caller) (result : Option Temp) (store : Store)
    (d : Datum) :
    Mirrors f p (leave ⟨top, callers ++ [⟨frame, result⟩], store⟩ d)
      (leave ⟨top, callers ++ [⟨frame.place f p, result⟩], store⟩ d) := by
  cases callers with
  | nil => exact resume_mirrors h result d store
  | cons caller callers =>
    rw [List.cons_append, List.cons_append]
    unfold leave
    dsimp only
    rw [resume_eq_receive, resume_eq_receive]
    cases caller.frame.receive caller.result d with
    | error e => exact .ended
    | ok t => exact .running (.waiting h)

theorem step_mirrors (top : Frame) (callers : List Caller) (result : Option Temp) (store : Store)
    (i : Instruction) :
    Mirrors f p (env.step ⟨top, callers ++ [⟨frame, result⟩], store⟩ i)
      (env.step ⟨top, callers ++ [⟨frame.place f p, result⟩], store⟩ i) := by
  by_cases hcall : ∃ r callee args ty, i = .call r callee args ty
  . obtain ⟨r, callee, args, ty, rfl⟩ := hcall
    rw [step_call, step_call]
    simp only [List.length_append, List.length_singleton]
    cases top.callTarget env callee args with
    | error e => exact .ended
    | ok target =>
      dsimp only
      cases env.dispatch (callers.length + 1 + 1) target.1 target.2 with
      | refused e => exact .ended
      | broken cause => exact .ended
      | frame callee =>
        exact .running (@State.Mirrors.waiting f p callee frame (⟨top, r⟩ :: callers) result store h)
      | host host =>
        dsimp only
        cases host store target.2 with
        | mk r' store' =>
          cases r' with
          | error e => exact .ended
          | ok d =>
            dsimp only
            rw [resume_eq_receive, resume_eq_receive]
            cases top.receive r d with
            | error e => exact .ended
            | ok t => exact .running (.waiting h)
  . -- apart from calls and returns, a step does not look at the callers
    have hplain : ∀ r callee args ty, i ≠ .call r callee args ty := by
      intro r callee args ty hi
      exact hcall ⟨r, callee, args, ty, hi⟩
    have hstep (cs : List Caller) : env.step ⟨top, cs, store⟩ i = _ :=
      step_of_plain hplain top cs store
    rw [hstep (callers ++ [Caller.mk frame result])]
    rw [hstep (callers ++ [Caller.mk (frame.place f p) result])]
    cases env.step ⟨top, [], store⟩ i with
    | running s => exact .running (.waiting h)
    | ended r store' =>
      cases r with
      | error e => exact .ended
      | ok d => exact leave_mirrors h top callers result store' d

theorem next_mirrors (top : Frame) (callers : List Caller) (result : Option Temp) (store : Store) :
    Mirrors f p (env.next ⟨top, callers ++ [⟨frame, result⟩], store⟩)
      (env.next ⟨top, callers ++ [⟨frame.place f p, result⟩], store⟩) := by
  unfold next
  dsimp only
  cases top.rest with
  | nil => exact .ended
  | cons i rest => exact step_mirrors h _ callers result store i

theorem operate_mirrors (store : Store)
    (operation : Except RunError (Memory → Except RunError Unit × Memory)) :
    Mirrors f p (operate ⟨frame, [], store⟩ operation)
      (operate ⟨frame.place f p, [], store⟩ operation) := by
  unfold operate
  cases operation with
  | error e => exact .ended
  | ok g =>
    dsimp only
    rcases g store.memory with ⟨e | _, memory⟩
    . exact .ended
    . exact .running (.back h)

theorem step_place {i : Instruction} (hi : i.isTerminator = false) (store : Store) :
    Mirrors f p (env.step ⟨frame, [], store⟩ i) (env.step ⟨frame.place f p, [], store⟩ i) := by
  cases i with
  | define id rhs =>
    simp only [step, Frame.compute_place h, Frame.set_place]
    cases frame.compute env store.memory rhs with
    | error e => exact .ended
    | ok computed =>
      dsimp only
      cases hset : frame.set id computed.1 with
      | error e => exact .ended
      | ok t =>
        have hreceive : frame.receive (some id) computed.1 = .ok t := hset
        exact .running (.back (Frame.receive_suits h hreceive))
  | call result callee args ty =>
    rw [step_call, step_call, Frame.callTarget_place h]
    cases frame.callTarget env callee args with
    | error e => exact .ended
    | ok target =>
      dsimp only
      cases env.dispatch ([] : List Caller).length.succ target.1 target.2 with
      | refused e => exact .ended
      | broken cause => exact .ended
      | frame callee => exact .running (@State.Mirrors.waiting f p callee frame [] result store h)
      | host host =>
        dsimp only
        cases host store target.2 with
        | mk r' store' =>
          cases r' with
          | error e => exact .ended
          | ok d => exact resume_mirrors h result d store'
  | free ptr | store v ptr =>
    simp only [step, Frame.value_place h]
    exact operate_mirrors h store _
  | comment text => exact .running (.back h)
  | ret | branch | branchIf | unreachable => cases hi

end Env

end ScriptedIR
