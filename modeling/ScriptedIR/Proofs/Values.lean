import ScriptedIR.Proofs.Steps
import ScriptedIR.Proofs.Straight

/-!
Instructions that give a value, on both sides: the generator appends one for every request that it
accepts, and the machine that executes it puts a datum into the temporary of the result, or stops with
an error and its store as it was.
-/

namespace ScriptedIR

def State.assign (s : State) (id : Temp) (d : Datum) : State :=
  { s with frame := { s.frame with temps := s.frame.temps.setIfInBounds id (some d) } }

namespace Env

variable {env : Env} {st : State} {rhs : Rhs} {id : Temp}

theorem value_assign (hid : id < st.frame.temps.size) (d : Datum) (ty : Ty) :
    (st.assign id d).frame.value env (.temp id ty) = .ok d := by
  simp [State.assign, Frame.value, hid]

theorem step_define (hid : id < st.frame.temps.size) {d : Datum}
    (h : st.frame.compute env st.store.memory rhs = .ok (d, st.store.memory)) :
    env.step st (.define id rhs) = .running (st.assign id d) := by
  have hset : st.frame.set id d = .ok (st.assign id d).frame := if_pos hid
  unfold step
  dsimp only
  rw [h]
  dsimp only
  rw [hset]
  rfl

theorem step_define_error {e : RunError}
    (h : st.frame.compute env st.store.memory rhs = .error e) :
    env.step st (.define id rhs) = .ended (.error e) st.store := by
  unfold step
  dsimp only
  rw [h]

end Env

structure GenState.Open (s : GenState) : Prop where
  unfinished : s.cursor.finished = false
  writable : s.Writable

theorem GenState.Open.extend {s : GenState} (h : s.Open) {is : List Instruction}
    (hplain : ∀ i ∈ is, i.isTerminator = false) (n : Temp) (m : Module) : (s.extend is n m).Open :=
  ⟨h.unfinished, h.writable.extend hplain⟩

namespace Gen

def byteBody : GenState :=
  { library := { name := "bytes", address := "bytes" }
    function :=
      { name := "f", result := .i8, params := [.i8], variadic := false, blocks := [⟨0, "entry", []⟩]
        nextBlock := 1 }
    name := "f"
    returnType := .i8
    entry := 0
    cursor := { start := 0 } }

theorem open_byteBody : byteBody.Open := ⟨rfl, fun _ => ⟨[], rfl, rfl⟩⟩

variable {s t : GenState}

theorem exec_convert {o : Operand} {hint : Option Hint} {x : Except ScriptError Value} :
    exec (convert o hint) s = (x, t) ↔
      ∃ m, o.convert hint s.library.module = (x, m) ∧
        t = { s with library := { s.library with module := m } } := by
  unfold exec convert
  rcases o.convert hint s.library.module with ⟨y, m⟩
  constructor
  . rintro ⟨⟩
    exact ⟨m, rfl, rfl⟩
  . rintro ⟨_, ⟨⟩, rfl⟩
    rfl

theorem exec_emitValue {r : Request} {v : Value} :
    exec (emitValue r) s = (.ok v, t) ↔ s.Open ∧
      ∃ draft, r.check s.function = .ok draft ∧
        v = (draft.ty?.map (.temp s.function.nextTemp)).getD (.const (.undef .void)) ∧
        t = { s with function := s.function.emitted s.cursor.block draft } := by
  unfold emitValue
  rw [exec_bind_ok]
  constructor
  . rintro ⟨w, u, hemit, hpure⟩
    cases hpure
    obtain ⟨hopen, draft, code, hcheck, hcode, hends, rfl, rfl⟩ := exec_emit.1 hemit
    exact ⟨⟨hopen, fun _ => ⟨code, hcode, hends⟩⟩, draft, hcheck, rfl, rfl⟩
  . rintro ⟨hopen, draft, hcheck, rfl, rfl⟩
    obtain ⟨code, hcode, hends⟩ := hopen.writable hopen.unfinished
    exact ⟨_, _, exec_emit.2 ⟨hopen.unfinished, draft, code, hcheck, hcode, hends, rfl, rfl⟩, rfl⟩

theorem exec_emitValue_of_check {r : Request} {rhs : Rhs}
    (hcheck : r.check s.function = .ok (.value rhs)) {v : Value} :
    exec (emitValue r) s = (.ok v, t) ↔ s.Open ∧ v = .temp s.function.nextTemp rhs.ty ∧
      t = s.extend [.define s.function.nextTemp rhs] (s.function.nextTemp + 1) s.library.module := by
  rw [exec_emitValue, hcheck]
  simp only [Except.ok.injEq, exists_eq_left']
  rfl

end Gen

def byteCall (v : Int64) : State :=
  { frame := .enter { Gen.byteBody.function with nextTemp := 3 } [.int v]
    callers := []
    store := {} }

def byteEnv : Env := { module := { name := "bytes" } }

end ScriptedIR
