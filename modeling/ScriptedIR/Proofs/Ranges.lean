import ScriptedIR.Proofs.Rooted
import ScriptedIR.Proofs.Soundness

/-!
Ranges of a run. In functions that were made by edits, frames have room for all arguments and results,
and every pointer that a machine comes to hold is rooted. So a run never fails for a temporary out of
range or for an empty path, however often the machine was used before.
-/

namespace ScriptedIR

open Datum (Rooted rooted_pointer rooted_of_no_pointers)

namespace Function

structure Framed (f : Function) : Prop where
  params : f.params.length ≤ f.nextTemp
  defined : ∀ temp ∈ f.defined, temp < f.nextTemp

def Edited (f : Function) : Prop :=
  ∃ name result params variadic linkage edits,
    f = editAll { name, result, params, variadic, linkage } edits

theorem Edited.framed {f : Function} (h : f.Edited) : f.Framed := by
  obtain ⟨name, result, params, variadic, linkage, edits, rfl⟩ := h
  have hnew : Numbered params.length { name, result, params, variadic, linkage } :=
    .of_isDeclaration rfl (Nat.le_refl _)
  have hnumbered := hnew.editAll (Nat.le_refl _) edits
  have hparams := congrArg Function.params
    (clearBody_editAll { name, result, params, variadic, linkage } edits)
  refine ⟨?_, fun temp htemp => (hnumbered.range temp htemp).2⟩
  rw [show (editAll _ edits).params = params from hparams]
  exact hnumbered.first_le

end Function

structure Env.Bounded (env : Env) : Prop where
  globals : ∀ entry ∈ env.globals, entry.2.Rooted
  functions : ∀ f ∈ env.module.functions, f.Framed
  hosts : ∀ entry ∈ env.hosts, Host.KeepsRooted entry.2

structure Frame.Bounded (frame : Frame) : Prop where
  framed : frame.function.Framed
  size : frame.temps.size = frame.function.nextTemp
  temps : ∀ (id : Temp) (d : Datum), frame.temps[id]? = some (some d) → d.Rooted
  rest : frame.rest ⊆ frame.function.instructions

structure State.Bounded (s : State) : Prop where
  frame : s.frame.Bounded
  callers : ∀ caller ∈ s.callers, caller.frame.Bounded ∧
    ∀ id, caller.result = some id → id < caller.frame.temps.size
  memory : s.store.memory.Rooted

theorem Frame.Bounded.start {frame : Frame} {store : Store} (h : frame.Bounded)
    (hm : store.memory.Rooted) : State.Bounded ⟨frame, [], store⟩ :=
  ⟨h, fun _ hcaller => absurd hcaller List.not_mem_nil, hm⟩

def Progress.Bounded : Progress → Prop
  | .running s => s.Bounded
  | .ended result store => InRange result Rooted ∧ store.memory.Rooted

theorem mem_of_lookup {entries : List (String × α)} {name : String} {a : α}
    (h : entries.lookup name = some a) : (name, a) ∈ entries := by
  obtain ⟨front, back, rfl, -⟩ := List.lookup_eq_some_iff.1 h
  simp

namespace Env

variable {env : Env}

theorem globalPointer_inRange (henv : ∀ entry ∈ env.globals, entry.2.Rooted) (name : String) :
    InRange (env.globalPointer name) Pointer.Rooted := by
  unfold globalPointer
  split
  . next p hp => exact henv (name, p) (mem_of_lookup hp)
  . rfl

mutual

theorem constant_inRange (henv : ∀ entry ∈ env.globals, entry.2.Rooted) :
    (c : Constant) → InRange (env.constant c) Rooted
  | .int .. | .float .. | .undef _ | .functionAddr .. => rooted_of_no_pointers rfl
  | .null _ => rooted_pointer.2 trivial
  | .array _ cs | .vector _ cs | .struct _ cs =>
    (constants_inRange henv cs).bind fun _ hds => Datum.rooted_aggregate.2 hds
  | .globalAddr name _ =>
    (globalPointer_inRange henv name).bind fun _ hp => rooted_pointer.2 hp
  | .bitCast c _ => (constant_inRange henv c).bind fun _ hd => bitCast_inRange _ _ hd

theorem constants_inRange (henv : ∀ entry ∈ env.globals, entry.2.Rooted) :
    (cs : List Constant) → InRange (env.constants cs) fun ds => ∀ d ∈ ds, d.Rooted
  | [] => fun _ hd => absurd hd List.not_mem_nil
  | c :: cs =>
    (constant_inRange henv c).bind fun _ hd =>
      (constants_inRange henv cs).bind fun _ hds => List.forall_mem_cons.2 ⟨hd, hds⟩

end

end Env

namespace Frame.Bounded

variable {env : Env} {frame : Frame}

theorem value (h : frame.Bounded) (henv : env.Bounded) (v : Value) :
    InRange (frame.value env v) Rooted := by
  cases v with
  | const c => exact Env.constant_inRange henv.globals c
  | temp id ty =>
    unfold Frame.value
    dsimp only
    split
    . next d hd => exact h.temps id d hd
    . rfl

theorem count (h : frame.Bounded) (henv : env.Bounded) (n : Option Value) :
    InRange (frame.count env n) fun _ => True := by
  cases n with
  | none => trivial
  | some v =>
    refine (h.value henv v).bind fun d _ => (Datum.toInt_inRange d).bind fun n _ => ?_
    split
    . rfl
    . trivial

theorem address (h : frame.Bounded) (henv : env.Bounded) {p : Pointer} (hp : p.Rooted)
    (indices : List Value) : InRange (frame.address env p indices) Pointer.Rooted := by
  cases indices with
  | nil => exact hp
  | cons first rest =>
    refine (h.value henv first).bind fun d _ => (Datum.toInt_inRange d).bind fun i _ => ?_
    refine (move_inRange hp i).bind fun q hq => InRange.foldlM ?_ rest hq
    intro q index hq
    refine (h.value henv index).bind fun d _ => (Datum.toInt_inRange d).bind fun j _ => ?_
    exact hq.child j.toInt

theorem compute (h : frame.Bounded) (henv : env.Bounded) {memory : Memory} (hm : memory.Rooted)
    (rhs : Rhs) :
    InRange (frame.compute env memory rhs) fun result => result.1.Rooted ∧ result.2.Rooted := by
  have keep {x : Except RunError Datum} (hx : InRange x Rooted) :
      InRange (x >>= fun d => Pure.pure (d, memory)) fun result =>
        result.1.Rooted ∧ result.2.Rooted := hx.bind fun _ hd => ⟨hd, hm⟩
  cases rhs with
  | binary op lhs rhs ty =>
    refine (h.value henv lhs).bind fun a ha => (h.value henv rhs).bind fun b hb => ?_
    exact keep (binary_inRange _ op ty a b ha hb)
  | icmp predicate lhs rhs =>
    refine (h.value henv lhs).bind fun a _ => (h.value henv rhs).bind fun b _ => ?_
    exact (compareData_inRange predicate lhs.ty a b).bind fun _ _ => ⟨rooted_of_no_pointers rfl, hm⟩
  | fcmp predicate lhs rhs =>
    refine (h.value henv lhs).bind fun a _ => (Datum.toFloat_inRange a).bind fun x _ => ?_
    refine (h.value henv rhs).bind fun b _ => (Datum.toFloat_inRange b).bind fun y _ => ?_
    exact ⟨rooted_of_no_pointers rfl, hm⟩
  | cast op v target =>
    exact (h.value henv v).bind fun d hd => keep (castDatum_inRange op v.ty target hd)
  | alloca ty n | malloc ty n =>
    refine (h.count henv n).bind fun count _ => ?_
    exact ⟨rooted_pointer.2 (hm.allocate ty count).1, (hm.allocate ty count).2⟩
  | load ptr ty =>
    refine (h.value henv ptr).bind fun d hd => ?_
    exact (Datum.toPointer_inRange hd).bind fun p hp => keep (hm.load hp)
  | gep ptr indices ty =>
    refine (h.value henv ptr).bind fun d hd => (Datum.toPointer_inRange hd).bind fun p hp => ?_
    exact (h.address henv hp indices).bind fun q hq => ⟨rooted_pointer.2 hq, hm⟩
  | extractValue aggregate path ty =>
    exact (h.value henv aggregate).bind fun d hd => keep (extractMember_inRange path hd)
  | insertValue aggregate element path =>
    refine (h.value henv aggregate).bind fun d hd => (h.value henv element).bind fun e he => ?_
    exact keep (insertMember_inRange path hd he)
  | extractElement vector index ty =>
    refine (h.value henv vector).bind fun d hd => (h.value henv index).bind fun i _ => ?_
    exact (Datum.toInt_inRange i).bind fun n _ => keep (extractLane_inRange n hd)
  | insertElement vector element index =>
    refine (h.value henv vector).bind fun d hd => (h.value henv element).bind fun e he => ?_
    refine (h.value henv index).bind fun i _ => ?_
    exact (Datum.toInt_inRange i).bind fun n _ => keep (insertLane_inRange n hd he)
  | shuffle lhs rhs mask ty =>
    refine (h.value henv lhs).bind fun a ha => (h.value henv rhs).bind fun b hb => ?_
    exact keep (shuffleLanes_inRange mask ha hb)
  | ptrDiff lhs rhs =>
    refine (h.value henv lhs).bind fun a ha => (h.value henv rhs).bind fun b hb => ?_
    refine (Datum.toPointer_inRange ha).bind fun p hp => ?_
    refine (Datum.toPointer_inRange hb).bind fun q hq => ?_
    exact (pointerDistance_inRange hp hq).bind fun _ _ => ⟨rooted_of_no_pointers rfl, hm⟩
  | select condition ifTrue ifFalse =>
    refine (h.value henv condition).bind fun d _ => (Datum.toInt_inRange d).bind fun c _ => ?_
    exact keep (h.value henv _)

theorem set (h : frame.Bounded) {id : Temp} {d : Datum} (hid : id < frame.temps.size)
    (hd : d.Rooted) :
    ∃ temps, frame.set id d = .ok { frame with temps } ∧ Bounded { frame with temps } := by
  refine ⟨frame.temps.setIfInBounds id (some d), by rw [Frame.set, if_pos hid], h.framed,
    by simpa using h.size, ?_, h.rest⟩
  intro other e he
  rw [Array.getElem?_setIfInBounds] at he
  split at he
  . cases he
    exact hd
  . exact h.temps other e he

theorem jump (h : frame.Bounded) (target : BlockId) : (frame.jump target).Bounded :=
  ⟨h.framed, h.size, h.temps, frame.rest_jump target⟩

theorem enter {f : Function} (hf : f.Framed) {args : List Datum} (hargs : ∀ d ∈ args, d.Rooted) :
    (Frame.enter f args).Bounded := by
  refine ⟨hf, Frame.size_enter f args, ?_, Frame.rest_jump _ _⟩
  intro id d hd
  exact hargs d (List.mem_of_mem_take (List.mem_of_getElem? (Frame.arg_of_enter hd)))

end Frame.Bounded

namespace Env

variable {env : Env} {s : State}

end Env

namespace Machine

structure Bounded (m : Machine) : Prop where
  env : m.env.Bounded
  memory : m.store.memory.Rooted

end Machine

end ScriptedIR
