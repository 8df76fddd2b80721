import ScriptedIR.Proofs.Completion
import ScriptedIR.Proofs.Edits

/-!
Courses of generation. Whatever operations a function is built with, in whatever order and nesting,
with whatever cursors, and whichever of them fail, the states in between are reached by a few kinds of
steps. Scripts are one way to choose them.
-/

namespace ScriptedIR

open Gen in
/--
A course of generation from a state to another, with the returns that were asked for on the way. Aside
from the steps that change the code anything may happen to the cursor, the names and the trace. Every
step is there whether it succeeds or fails.
-/
inductive Course (start : GenState) : List ReturnCall → GenState → Prop
  | refl : Course start [] start
  | aside {log : List ReturnCall} {s t : GenState} :
      Course start log s → s.SameCode t → Course start log t
  | emit {log : List ReturnCall} {s : GenState} {r : Request} :
      Course start log s → r.isReturn = false → Course start log (exec (emit r) s).2
  | newBlock {log : List ReturnCall} {s : GenState} (label : String) :
      Course start log s → Course start log (s.grow label)
  | returnBlock {log : List ReturnCall} {s : GenState} :
      Course start log s → Course start log (exec returnBlock s).2
  | move {log : List ReturnCall} {s : GenState} {f : Function} {block after : BlockId} :
      Course start log s → s.function.moveAfter block after = .ok f →
      Course start log { s with function := f }
  | ret {log : List ReturnCall} {s : GenState} (a : Operand) : Course start log s →
      Course start (log ++ [⟨false, s.cursor.finished, (exec (ret a) s).1.toBool⟩]) (exec (ret a) s).2
  | directRet {log : List ReturnCall} {s : GenState} (a : Operand) : Course start log s →
      Course start (log ++ [⟨true, s.cursor.finished, (exec (directRet a) s).1.toBool⟩])
        (exec (directRet a) s).2

namespace Course

variable {start s : GenState} {log : List ReturnCall} {I : GenState → Prop}

theorem invariant (h : Course start log s) (hI : Gen.Growing I fun _ => True)
    (hreturn : Gen.Keeps I Gen.returnBlock) (hstart : I start) : I s := by
  induction h with
  | refl => exact hstart
  | aside _ hsame ih => exact hI.same ih hsame
  | emit _ hr ih => exact (hI.emit_keeps _ _ ih).1
  | newBlock label _ ih => exact (hI.grows label ih).1
  | returnBlock _ ih => exact (hreturn _ ih).1
  | move _ hmove ih => exact hI.move ih trivial hmove
  | ret a _ ih => exact ((hI.emitting hreturn).ret_keeps (fun _ => trivial) a _ ih).1
  | directRet a _ ih => exact ((hI.emitting hreturn).directRet_keeps (fun _ => trivial) a _ ih).1

end Course

namespace Gen

theorem trace_furnishing (old : List Event) : Furnishing (fun s => s.trace = old) fun _ => True where
  appends _ _ h := h
  allocates _ _ h := h
  grows _ h := ⟨h, trivial⟩
  returns _ h _ := h

theorem trace_emitting (old : List Event) : Emitting (fun s => s.trace = old) fun _ => True where
  emit r _ := (trace_furnishing old).emit_keeps r
  convert _ _ _ h := ⟨h, rfl, fun _ _ => trivial⟩
  newBlock label := ((trace_furnishing old).newBlock_keeps label).mono fun _ _ => trivial
  returnBlock := (trace_furnishing old).returnBlock_keeps
  cursor hstart _ h := ⟨h, hstart _, fun _ _ => trivial⟩

theorem returnCalls_noting (direct : Bool) {x : Gen Unit} {s : GenState}
    (htrace : (exec x s).2.trace = s.trace) :
    (exec x s).2.SameCode (exec (noting direct x) s).2 ∧
      (exec (noting direct x) s).2.returnCalls =
        s.returnCalls ++ [⟨direct, s.cursor.finished, (exec x s).1.toBool⟩].filter (·.succeeded) := by
  have hnoting : exec (noting direct x) s =
      exec (x >>= fun _ => record (.returned direct s.cursor.finished)) s := rfl
  rw [hnoting, exec_bind]
  unfold GenState.returnCalls
  rw [← htrace]
  rcases exec x s with ⟨e | u, t⟩
  . exact ⟨⟨rfl, rfl, List.Subset.refl _⟩, (List.append_nil _).symm⟩
  . refine ⟨⟨rfl, rfl, List.subset_append_left _ _⟩, ?_⟩
    change (t.trace ++ [Event.returned direct s.cursor.finished]).filterMap Event.returnCall? = _
    rw [List.filterMap_append]
    rfl

end Gen

namespace Course

variable {start s : GenState} {log : List ReturnCall} {I : GenState → Prop}

def Noted (start s : GenState) : Prop :=
  ∃ log, Course start log s ∧ log.filter (·.succeeded) = s.returnCalls

theorem stable (start : GenState) : Gen.Stable (Noted start) fun _ => True where
  same := fun ⟨_, h, hlog⟩ hsame hcalls => ⟨_, h.aside hsame, hlog.trans hcalls.symm⟩
  emit {s} r hr := fun ⟨_, h, hlog⟩ => by
    have htrace := ((Gen.trace_emitting s.trace).emit r trivial s rfl).1
    refine ⟨_, h.emit hr, ?_⟩
    rw [hlog, GenState.returnCalls, GenState.returnCalls, htrace]
  newBlock := fun label ⟨_, h, hlog⟩ => ⟨⟨_, h.newBlock label, hlog⟩, trivial⟩
  returnBlock {s} := fun ⟨_, h, hlog⟩ => by
    have htrace := ((Gen.trace_emitting s.trace).returnBlock s rfl).1
    refine ⟨_, h.returnBlock, ?_⟩
    rw [hlog, GenState.returnCalls, GenState.returnCalls, htrace]
  move := fun ⟨_, h, hlog⟩ _ hmove => ⟨_, h.move hmove, hlog⟩
  -- a return that fails is in the log, but not among those that count, and it leaves no note either
  ret {s} a := fun ⟨_, h, hlog⟩ => by
    have htrace := ((Gen.trace_emitting s.trace).ret_keeps (fun _ => trivial) a s rfl).1
    obtain ⟨hsame, hcalls⟩ := Gen.returnCalls_noting false htrace
    refine ⟨_, (h.ret a).aside hsame, ?_⟩
    rw [List.filter_append, hlog, hcalls]
  directRet {s} a := fun ⟨_, h, hlog⟩ => by
    have htrace := ((Gen.trace_emitting s.trace).directRet_keeps (fun _ => trivial) a s rfl).1
    obtain ⟨hsame, hcalls⟩ := Gen.returnCalls_noting true htrace
    refine ⟨_, (h.directRet a).aside hsame, ?_⟩
    rw [List.filter_append, hlog, hcalls]

/--
Every script takes some course, whether it comes to its end or fails, and what it returned is in its
trace.
-/
theorem of_script (start : GenState) (body : List Stmt) (htrace : start.trace = []) :
    Noted start (Gen.exec (Gen.script body) start).2 := by
  rw [← Gen.scriptVia_block]
  have hfind (ref : BlockRef) := Gen.block_keeps (stable start) ref
  refine (Gen.scriptVia_keeps (stable start) hfind body start ⟨[], .refl, ?_⟩).1
  simp [GenState.returnCalls, htrace]

end Course

theorem Gen.exec_emitAt_eq (block : BlockId) (position : Option Nat) (r : Request) (s : GenState) :
    exec (emitAt block position r) s =
      ((Builder.build ⟨s.function, block, position⟩ r).1.mapError .ofCode,
        { s with function := (Builder.build ⟨s.function, block, position⟩ r).2.function }) := rfl

theorem Gen.exec_emitAt_error {block : BlockId} {position : Option Nat} {r : Request}
    {s t : GenState} {e : ScriptError} (h : exec (emitAt block position r) s = (.error e, t)) :
    ∃ n, s.function.nextTemp ≤ n ∧ t = { s with function := { s.function with nextTemp := n } } := by
  rw [exec_emitAt_eq] at h
  obtain ⟨hresult, rfl⟩ := Prod.mk.inj h
  obtain ⟨_, n, -, hle, hfunction⟩ | ⟨draft, place, -, -, hok, -⟩ :=
    Builder.build_cases ⟨s.function, block, position⟩ r
  . refine ⟨n, hle, ?_⟩
    rw [hfunction]
  . rw [hok] at hresult
    cases hresult

structure GenState.Follows (start s : GenState) : Prop where
  entry : s.entry = start.entry
  returnType : s.returnType = start.returnType
  header : s.function.clearBody = start.function.clearBody
  functions : s.library.module.functions = start.library.module.functions

namespace GenState.Follows

variable {start s t : GenState}

theorem name (h : start.Follows s) : s.function.name = start.function.name := by
  have hname := congrArg Function.name h.header
  exact hname

theorem sameCode (h : start.Follows s) (hsame : s.SameCode t) : start.Follows t where
  entry := hsame.entry.trans h.entry
  returnType := hsame.returnType.trans h.returnType
  header := by
    rw [hsame.function]
    exact h.header
  functions := hsame.functions.trans h.functions

theorem emitAt (h : start.Follows s) (block : BlockId) (position : Option Nat) (r : Request) :
    start.Follows (Gen.exec (Gen.emitAt block position r) s).2 :=
  { h with
    header := (Builder.build_static ⟨s.function, block, position⟩ r).2.trans h.header }

theorem move {f : Function} {block after : BlockId} (h : start.Follows s)
    (hmove : s.function.moveAfter block after = .ok f) : start.Follows { s with function := f } := by
  refine { h with header := ?_ }
  dsimp only
  rw [Function.moveAfter_static hmove]
  exact h.header

theorem loose (start : GenState) : Gen.Loose start.Follows fun _ => True where
  same := sameCode
  appends block r h := h.emitAt block none r
  allocates block ty h := h.emitAt block (some 0) (.alloca ty none)
  grows _ h := ⟨{ h with header := h.header }, trivial⟩
  returns _ h _ := { h with }
  move h _ hmove := h.move hmove

end GenState.Follows

theorem Course.follows {start s : GenState} {log : List ReturnCall} (h : Course start log s) :
    start.Follows s :=
  h.invariant (GenState.Follows.loose start).toGrowing (GenState.Follows.loose start).returnBlock_keeps
    ⟨rfl, rfl, rfl, rfl⟩

def GenState.HasEntry (s : GenState) : Prop := s.entry ∈ s.function.blocks.map Block.id

namespace GenState.HasEntry

theorem emitAt {s : GenState} (h : s.HasEntry) (block : BlockId) (position : Option Nat)
    (r : Request) : (Gen.exec (Gen.emitAt block position r) s).2.HasEntry := by
  unfold HasEntry
  rw [Gen.exec_emitAt_eq, Builder.ids_build]
  exact h

theorem loose : Gen.Loose HasEntry fun _ => True where
  same h hsame := by
    unfold HasEntry
    rw [hsame.function, hsame.entry]
    exact h
  appends block r h := h.emitAt block none r
  allocates block ty h := h.emitAt block (some 0) (.alloca ty none)
  grows label h := by
    refine ⟨?_, trivial⟩
    simp only [HasEntry, grow, Function.addBlock, List.map_append, List.mem_append]
    exact .inl h
  returns _ h _ := h
  move h _ hmove := ((Function.moveAfter_perm hmove).map Block.id).mem_iff.2 h

theorem of_tidy {s : GenState} {g : Function} {terminated : Bool} (h : s.HasEntry)
    (htidy : s.tidy = .ok (g, terminated)) : s.entry ∈ g.blocks.map Block.id := by
  obtain ⟨f, hf, hmoved⟩ := trimmed_of_tidy htidy
  have hentry : s.entry ∈ f.blocks.map Block.id := by
    cases hf with
    | finished | unfinished => exact h
    | dropped _ hne =>
      obtain ⟨b, hb, hid⟩ := List.mem_map.1 h
      refine List.mem_map.2 ⟨b, ?_, hid⟩
      refine (List.mem_eraseP_of_neg ?_).2 hb
      simpa [hid] using Ne.symm hne
  rcases hmoved with ⟨rfl, -⟩ | ⟨block, tail, -, -, hmove⟩
  . exact hentry
  . exact ((Function.moveAfter_perm hmove).map Block.id).mem_iff.2 hentry

end GenState.HasEntry

end ScriptedIR
