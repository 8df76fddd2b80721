import ScriptedIR.Proofs.Steps
import ScriptedIR.Verify

/-!
Verified code. A block passes verification exactly when its only terminator is its last instruction
and leads to blocks of the function; a machine that runs verified code never comes to the end of a
block without having left it.
-/

namespace ScriptedIR

theorem forM_eq_ok_iff {f : α → Except ε Unit} {as : List α} :
    as.forM f = .ok () ↔ ∀ a ∈ as, f a = .ok () := by
  induction as with
  | nil => simp [List.forM, pure, Except.pure]
  | cons a as ih =>
    rw [List.forM, List.forall_mem_cons, ← ih]
    cases f a with
    | error e => simp [bind, Except.bind]
    | ok u => simp [bind, Except.bind]

theorem exists_of_forM_eq_error {f : α → Except ε Unit} {as : List α} {e : ε}
    (h : as.forM f = .error e) : ∃ a ∈ as, f a = .error e := by
  induction as with
  | nil => cases h
  | cons a as ih =>
    rw [List.forM] at h
    cases ha : f a with
    | error e' =>
      rw [ha] at h
      cases h
      exact ⟨a, List.mem_cons_self, ha⟩
    | ok u =>
      rw [ha] at h
      obtain ⟨b, hb, he⟩ := ih h
      exact ⟨b, List.mem_cons_of_mem a hb, he⟩

namespace Function

theorem position?_isNone {f : Function} {id : BlockId} :
    (f.position? id).isNone ↔ f.block? id = none := by
  simp [position?, block?, List.find?_eq_none]

def Complete (f : Function) (b : Block) : Prop :=
  ∃ body last, b.body = body ++ [last] ∧ last.isTerminator ∧
    (∀ i ∈ body, i.isTerminator = false) ∧ ∀ target ∈ last.successors, f.block? target ≠ none

theorem fault?_eq_none_iff {f : Function} {b : Block} : b.fault? f = none ↔ f.Complete b := by
  unfold Block.fault? Complete
  rcases List.eq_nil_or_concat b.body with hbody | ⟨body, last, hbody⟩
  . simp [hbody]
  . rw [List.concat_eq_append] at hbody
    rw [hbody]
    simp only [List.getLast?_append, List.getLast?_singleton, Option.some_or, List.dropLast_concat]
    constructor
    . intro h
      split at h
      . cases h
      . next hlast =>
        split at h
        . cases h
        . next hearly =>
          split at h
          . cases h
          . next htargets =>
            refine ⟨body, last, rfl, by simpa using hlast, ?_, ?_⟩
            . simpa [List.countP_eq_zero] using hearly
            . intro target htarget hnone
              have := List.find?_eq_none.1 htargets target htarget
              exact this (position?_isNone.2 hnone)
    . rintro ⟨body', last', heq, hlast, hearly, htargets⟩
      obtain ⟨rfl, hlast'⟩ := List.append_inj' heq rfl
      cases hlast'
      have hcount : body.countP Instruction.isTerminator = 0 := by
        rw [List.countP_eq_zero]
        simpa using hearly
      have hfind : last.successors.find? (fun target => (f.position? target).isNone) = none := by
        rw [List.find?_eq_none]
        intro target htarget hnone
        exact htargets target htarget (position?_isNone.1 hnone)
      simp [hlast, hcount, hfind]

theorem verify_eq_ok_iff {f : Function} : f.verify = .ok () ↔ ∀ b ∈ f.blocks, f.Complete b := by
  unfold verify
  rw [forM_eq_ok_iff]
  apply forall₂_congr
  intro b _
  rw [← fault?_eq_none_iff]
  cases b.fault? f <;> simp

end Function

theorem Module.verify_of_mem {m : Module} (h : m.verify = .ok ()) {f : Function}
    (hf : f ∈ m.functions) : f.verify = .ok () :=
  forM_eq_ok_iff.1 h f hf

namespace Frame

/--
What is left to execute is the end of a block, with no terminator among what was executed of it.
-/
def Inside (frame : Frame) : Prop :=
  frame.rest ≠ [] ∧
    ∃ b before, frame.function.block? frame.block = some b ∧ b.body = before ++ frame.rest ∧
      ∀ i ∈ before, i.isTerminator = false

structure Verified (frame : Frame) : Prop where
  code : frame.function.verify = .ok ()
  inside : frame.Inside

theorem Verified.of_jump {frame : Frame} (hcode : frame.function.verify = .ok ()) {target : BlockId}
    (h : frame.function.block? target ≠ none) : (frame.jump target).Verified := by
  obtain ⟨b, hb⟩ := Option.ne_none_iff_exists'.1 h
  have hrest : (frame.jump target).rest = b.body := by
    simp [jump, hb]
  obtain ⟨body, last, hbody, -⟩ :=
    Function.verify_eq_ok_iff.1 hcode b (List.mem_of_find?_eq_some hb)
  refine ⟨hcode, ?_, b, [], hb, ?_, by simp⟩
  . rw [hrest, hbody]
    simp
  . rw [hrest]
    rfl

theorem Verified.of_enter {f : Function} (hcode : f.verify = .ok ())
    (hdefined : f.isDeclaration = false) (args : List Datum) : (enter f args).Verified := by
  unfold enter
  apply Verified.of_jump hcode
  unfold Function.isDeclaration at hdefined
  cases hblocks : f.blocks with
  | nil => simp [hblocks] at hdefined
  | cons b bs => simp [Function.block?, Function.entry?, hblocks]

theorem Verified.of_temps {frame : Frame} (h : frame.Verified) (temps : Array (Option Datum)) :
    Verified { frame with temps } :=
  ⟨h.code, h.inside⟩

-- The block ends in a terminator, so there is something behind every other instruction.
theorem Verified.behind {frame : Frame} (h : frame.Verified) {i : Instruction}
    {rest : List Instruction} (hrest : frame.rest = i :: rest) (hplain : i.isTerminator = false) :
    Verified { frame with rest } := by
  obtain ⟨hcode, -, b, before, hb, hbody, hbefore⟩ := h
  rw [hrest] at hbody
  refine ⟨hcode, ?_, b, before ++ [i], hb, by simp [hbody], ?_⟩
  . rintro (rfl : rest = [])
    obtain ⟨body, last, hlast, hterm, -⟩ :=
      Function.verify_eq_ok_iff.1 hcode b (List.mem_of_find?_eq_some hb)
    rw [hbody] at hlast
    obtain ⟨-, heq⟩ := List.append_inj' hlast rfl
    cases heq
    simp [hplain] at hterm
  . simpa [or_imp, forall_and, hplain] using hbefore

theorem Verified.targets {frame : Frame} (h : frame.Verified) {i : Instruction}
    {rest : List Instruction} (hrest : frame.rest = i :: rest) {target : BlockId}
    (htarget : target ∈ i.successors) : frame.function.block? target ≠ none := by
  obtain ⟨hcode, -, b, before, hb, hbody, -⟩ := h
  obtain ⟨body, last, hlast, -, hearly, htargets⟩ :=
    Function.verify_eq_ok_iff.1 hcode b (List.mem_of_find?_eq_some hb)
  have hmem : i ∈ body ++ [last] := by
    rw [← hlast, hbody, hrest]
    simp
  rw [List.mem_append, List.mem_singleton] at hmem
  cases hmem with
  | inl hbody =>
    have hplain := hearly i hbody
    cases i <;> simp [Instruction.isTerminator, Instruction.successors] at hplain htarget
  | inr hlast =>
    subst hlast
    exact htargets target htarget

end Frame

def State.Verified (s : State) : Prop :=
  s.frame.Verified ∧ ∀ caller ∈ s.callers, caller.frame.Verified

namespace Env

variable {env : Env}

theorem next_verified (hverify : env.module.verify = .ok ()) {s t : State} (hs : s.Verified)
    (h : env.next s = .running t) : t.Verified := by
  obtain ⟨hframe, hcallers⟩ := hs
  obtain ⟨i, rest, hrest⟩ := List.exists_cons_of_ne_nil hframe.inside.1
  rw [next_of_cons hrest] at h
  cases step_running h with
  | stay temps store plain size =>
    exact ⟨(hframe.behind hrest plain).of_temps temps, hcallers⟩
  | enter name f args result plain found defined room =>
    have hmem : f ∈ env.module.functions := List.mem_of_find?_eq_some found
    refine ⟨.of_enter (Module.verify_of_mem hverify hmem) defined args, ?_⟩
    rw [List.forall_mem_cons]
    exact ⟨hframe.behind hrest plain, hcallers⟩
  | back caller callers temps waiting size =>
    rw [show s.callers = caller :: callers from waiting, List.forall_mem_cons] at hcallers
    exact ⟨hcallers.1.of_temps temps, hcallers.2⟩
  | jump target leads =>
    refine ⟨?_, hcallers⟩
    exact Frame.Verified.of_jump hframe.code (hframe.targets hrest leads)

theorem reaches_verified (hverify : env.module.verify = .ok ()) {name : String} {args : List Datum}
    {frame : Frame} {depth : Nat} (hcall : env.dispatch depth name args = .frame frame)
    {store : Store} {s : State} (h : env.Reaches ⟨frame, [], store⟩ s) : s.Verified := by
  apply h.invariant fun s t => next_verified hverify
  obtain ⟨f, hf, hdefined, -, rfl⟩ := dispatch_frame hcall
  have hmem : f ∈ env.module.functions := List.mem_of_find?_eq_some hf
  exact ⟨.of_enter (Module.verify_of_mem hverify hmem) hdefined args, by simp⟩

theorem next_error {s : State} {e : RunError} {store : Store} (hrest : s.frame.rest ≠ [])
    (h : env.next s = .ended (.error e) store) : e.isOfRun = false ∨ env.HostFault e := by
  obtain ⟨i, rest, hcons⟩ := List.exists_cons_of_ne_nil hrest
  rw [next_of_cons hcons] at h
  exact step_error h

end Env

/--
Running verified code never fails for want of a terminator, as long as no host function claims so.
Whenever a frame is at work or waits, it is inside of a block, behind no terminator of it.
-/
theorem Machine.run_inside_blocks (m : Machine) (name : String) (args : List Datum)
    (hverify : m.env.module.verify = .ok ())
    (hhosts : ∀ symbol host store data f b, m.env.hosts.lookup symbol = some host →
      (host store data).1 ≠ .error (.missingTerminator f b)) :
    (∀ f b, (m.run name args).1 ≠ .error (.missingTerminator f b)) ∧
      ∀ frame s, m.env.dispatch 0 name args = .frame frame →
        m.env.Reaches ⟨frame, [], m.store⟩ s →
        s.frame.Inside ∧ ∀ caller ∈ s.callers, caller.frame.Inside := by
  have inside {frame : Frame} {s : State} (hcall : m.env.dispatch 0 name args = .frame frame)
      (h : m.env.Reaches ⟨frame, [], m.store⟩ s) : s.Verified :=
    Env.reaches_verified hverify hcall h
  constructor
  . intro f b
    show (m.env.run m.store name args).result ≠ _
    have hhost : ¬m.env.HostFault (.missingTerminator f b) := by
      rintro ⟨symbol, host, store, data, hlookup, herror⟩
      exact hhosts symbol host store data f b hlookup herror
    unfold Env.run
    split
    . next e hcall =>
      intro h
      cases h
      have := Env.dispatch_refused hcall
      simp [RunError.isOfRun] at this
    . next host hcall =>
      exact hhosts name host m.store args f b (Env.dispatch_host hcall)
    . simp
    . next frame hcall =>
      rcases Env.runFor_cases m.env m.env.limits.steps 0 ⟨frame, [], m.store⟩ with
        ⟨t, -, -, hrun⟩ | ⟨n, t, -, ht, hrest, -⟩ | ⟨n, t, result, store, -, ht, hrest, hend, hrun⟩
      . rw [hrun]
        simp
      . exact absurd hrest (inside hcall ⟨n, ht⟩).1.inside.1
      . rw [hrun]
        rintro rfl
        cases Env.next_error hrest hend with
        | inl h => simp [RunError.isOfRun] at h
        | inr h => exact hhost h
  . intro frame s hcall h
    have hs := inside hcall h
    exact ⟨hs.1.inside, fun caller hmem => (hs.2 caller hmem).inside⟩

def countdown : Function where
  name := "countdown"
  result := .i32
  params := [.i32]
  variadic := false
  blocks := [
    ⟨0, "entry", [.define 1 (.icmp .eq (.temp 0 .i32) (.ofInt .i32 0)), .branchIf (.temp 1 .i1) 2 1]⟩,
    ⟨1, "again", [
      .define 2 (.binary .sub (.temp 0 .i32) (.ofInt .i32 1) .i32),
      .call (some 3) (.const (.functionAddr "countdown" (.pointer (.function .i32 [.i32] false))))
        [.temp 2 .i32] .i32,
      .branch 2]⟩,
    ⟨2, "exit", [.ret (some (.temp 0 .i32))]⟩]
  nextTemp := 4
  nextBlock := 3

theorem Machine.countdown_inside_blocks :
    let m : Machine := { env := { module := { name := "m", functions := [countdown] } } }
    m.env.module.verify = .ok () ∧
      (∀ f b, (m.run "countdown" [.int 3]).1 ≠ .error (.missingTerminator f b)) ∧
      ∀ frame s, m.env.dispatch 0 "countdown" [.int 3] = .frame frame →
        m.env.Reaches ⟨frame, [], m.store⟩ s →
        s.frame.Inside ∧ ∀ caller ∈ s.callers, caller.frame.Inside := by
  intro m
  have hverify : m.env.module.verify = .ok () := rfl
  refine ⟨hverify, m.run_inside_blocks "countdown" [.int 3] hverify ?_⟩
  intro symbol host store data f b hlookup herror
  have := Host.standard_dataFaults hlookup store data _ herror
  simp [RunError.isOfData] at this

end ScriptedIR
