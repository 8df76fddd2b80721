import ScriptedIR.Proofs.Keeping

/-!
Scripts only add to the trace, also where they fail: what a statement did is never forgotten.
-/

namespace ScriptedIR.Gen

def Traced (x : Gen α) : Prop := ∀ old, Keeps (fun s => old ⊆ s.trace) x

theorem trace_loose (old : List Event) : Loose (fun s => old ⊆ s.trace) fun _ => True where
  same h hsame := List.Subset.trans h hsame.trace
  appends _ _ h := h
  allocates _ _ h := h
  grows _ h := ⟨h, trivial⟩
  returns _ h _ := h
  move h _ _ := h

theorem trace_stable (old : List Event) : Stable (fun s => old ⊆ s.trace) fun _ => True :=
  (trace_loose old).stable

namespace Traced

theorem of_exec {x : Gen α} (h : Traced x) {s t : GenState} {r : Except ScriptError α}
    (hexec : exec x s = (r, t)) : s.trace ⊆ t.trace := by
  have := (h s.trace s (List.Subset.refl _)).1
  rw [hexec] at this
  exact this

theorem pure (a : α) : Traced (pure a) := fun _ => .pure trivial

theorem throw (e : ScriptError) : Traced (throw e : Gen α) := fun _ => .throw e

theorem get : Traced get := fun _ => Keeps.get.mono fun _ _ => trivial

theorem bind {x : Gen α} {f : α → Gen β} (hx : Traced x) (hf : ∀ a, Traced (f a)) :
    Traced (x >>= f) :=
  fun old => (hx old).bind fun a _ => hf a old

theorem withNames {x : Gen α} (hx : Traced x) (names : Names Operand) : Traced (withNames names x) :=
  fun old => withNames_keeps (trace_stable old) (hx old) names

end Traced

theorem emit_traced (r : Request) : Traced (emit r) := fun _ => (trace_loose _).emit_keeps r

theorem newBlock_traced (label : String) : Traced (newBlock label) :=
  fun _ => newBlock_keeps (trace_stable _) label

theorem moveCursor_traced {change : Cursor → Cursor} (hstart : ∀ c, (change c).start = c.start) :
    Traced (moveCursor change) :=
  fun _ => moveCursor_keeps (trace_stable _) hstart

theorem record_traced (e : Event) : Traced (record e) := fun _ => (trace_loose _).record_keeps e

theorem Straight.traced {x : Gen α} (hx : Straight x) : Traced x :=
  fun _ => hx.keeps (trace_stable _)

theorem inBlock_traced {x : Gen Unit} (hx : Traced x) (label : String) : Traced (inBlock label x) :=
  fun old => inBlock_keeps (trace_stable old) (hx old) label

theorem unlessFinished_traced {x : Gen Unit} (hx : Traced x) : Traced (unlessFinished x) :=
  fun old => unlessFinished_keeps (hx old)

theorem close_traced (r : Request) : Traced (do let _ ← emit r; finish) :=
  fun _ => (trace_loose _).emitting.close_keeps trivial

theorem returnBlock_traced : Traced returnBlock := fun _ => returnBlock_keeps (trace_stable _)

theorem joinArm_traced (arm : BlockHandle) (exit : BlockId) : Traced (joinArm arm exit) :=
  fun _ => joinArm_keeps (trace_stable _) arm exit

theorem moveBehind_traced (block after : BlockId) : Traced (moveBehind block after) :=
  fun _ => moveBehind_keeps (trace_stable _) trivial after

theorem condExit_traced (given : Option BlockId) (isBody : Bool) (arm : BlockHandle) :
    Traced (condExit given isBody arm) :=
  fun _ => condExit_keeps (trace_stable _) (fun _ _ => trivial) fun _ => trivial

theorem cond_traced {ifTrue : Arm (Gen Unit) BlockHandle}
    {ifFalse : Option (Arm (Gen Unit) BlockHandle)} (hx : ∀ x, ifTrue = .body x → Traced x)
    (hy : ∀ x, ifFalse = some (.body x) → Traced x) (condition : Operand) (given : Option BlockId) :
    Traced (cond condition ifTrue ifFalse given) :=
  fun old => cond_keeps (trace_stable _) (fun x h => hx x h old) (fun x h => hy x h old) condition
    fun _ _ => trivial

section Loop

def LoopParts.Traced (parts : LoopParts) : Prop := ∀ old, parts.Keeps fun s => old ⊆ s.trace

variable {parts : LoopParts} (h : parts.Traced) (slots : List Value)
  (header body increment exit last : BlockId)

include h

theorem testPart_traced : Traced (parts.testPart slots header body increment exit last) :=
  fun old => testPart_keeps (trace_stable _) (h old) _ _ _ _ _ _

theorem incrementPart_traced : Traced (parts.incrementPart slots header increment exit last) :=
  fun old => incrementPart_keeps (trace_stable _) (h old) _ _ _ _ _

omit slots header body increment exit last in
theorem loop_traced : Traced (loop parts) :=
  fun old => loop_keeps (trace_stable _) (h old) fun _ _ => trivial

end Loop

section Script

theorem bindName_traced (name : Option String) (o : Operand) : Traced (bindName name o) :=
  fun _ => bindName_keeps (trace_stable _) name o

theorem bindHandle_traced (name : Option String) (h : BlockHandle) : Traced (bindHandle name h) :=
  fun _ => bindHandle_keeps (trace_stable _) name h

theorem block_traced (ref : BlockRef) : Traced (block ref) := fun _ => block_keeps (trace_stable _) ref

theorem call_traced {expand : Macro → List Operand → Gen Operand}
    (h : ∀ m args, Traced (expand m args)) (callee : Operand) (args : List Operand) :
    Traced (call expand callee args) :=
  fun old => call_keeps (trace_stable _) (fun m args => h m args old) callee args

theorem expand_traced (depth : Nat) (m : Macro) (args : List Operand) :
    Traced (m.expand depth args) := by
  intro old
  rw [← Macro.expandVia_block]
  exact expandVia_keeps (trace_stable old) (block_keeps (trace_stable old)) depth m args

end Script

end ScriptedIR.Gen
