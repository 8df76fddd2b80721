import Mathlib.Data.List.Flatten
import ScriptedIR.Proofs.Straight

/-!
Edits of a function. Whatever is done to a new function with its own operations and with builders,
its numbers stay unique: those of its blocks, and those of the temporaries that its instructions
define. Moving a block changes its place only, and a move that fails changes nothing.
-/

namespace ScriptedIR

theorem Block.insert_perm (b : Block) (position : Nat) (i : Instruction) :
    (b.insert position i).body.Perm (i :: b.body) := by
  have h : (b.insert position i).body.Perm (i :: (b.body.take position ++ b.body.drop position)) :=
    List.perm_middle
  rwa [List.take_append_drop] at h

theorem Request.Drafted.result?_instruction {f : Function} {r : Request} {draft : Draft}
    (h : Drafted f r draft) (result : Temp) :
    (draft.instruction result).result? = if draft.ty?.isSome then some result else none := by
  cases h with
  | @call _ _ _ ty =>
    cases hty : ty.isVoid <;> simp [Draft.instruction, Instruction.result?, Draft.ty?, hty]
  | _ => rfl

namespace Function

def instructions (f : Function) : List Instruction := f.blocks.flatMap Block.body

def defined (f : Function) : List Temp := f.instructions.filterMap Instruction.result?

variable {f g : Function} {id anchor : BlockId}

section Instructions

theorem instructions_insert (h : f.code? id ≠ none) (place : Block → Nat) (i : Instruction) :
    (f.modifyBlock id fun b => b.insert (place b) i).instructions.Perm (i :: f.instructions) := by
  rw [ne_eq, code?_eq_none_iff] at h
  unfold instructions modifyBlock block? at *
  dsimp only
  generalize f.blocks = blocks at h ⊢
  induction blocks with
  | nil => simp at h
  | cons b blocks ih =>
    rw [modifyFirst]
    by_cases hb : b.id = id
    . simp only [hb, decide_true, ↓reduceIte, List.flatMap_cons]
      exact (b.insert_perm _ i).append_right _
    . simp only [hb, decide_false, Bool.false_eq_true, ↓reduceIte, List.flatMap_cons]
      rw [List.find?_cons_of_neg (by simpa using hb)] at h
      exact ((ih h).append_left _).trans List.perm_middle

theorem instructions_addBlock (label : String) :
    instructions (f.addBlock label).2 = f.instructions := by
  simp [instructions, addBlock]

theorem instructions_perm (h : g.blocks.Perm f.blocks) : g.instructions.Perm f.instructions :=
  h.flatMap_right _

theorem instructions_removeBlock : (f.removeBlock id).instructions.Sublist f.instructions :=
  List.eraseP_sublist.flatMap _

end Instructions

section Relocate

theorem insertIdx_append_length (front back : List Block) (b : Block) :
    (front ++ back).insertIdx front.length b = front ++ b :: back := by
  induction front with
  | nil => simp
  | cons c front ih => simpa using ih

theorem withoutBlock_insertIdx {b : Block} (h : f.block? id = some b) :
    (f.withoutBlock id).insertIdx (f.blocks.findIdx (·.id = id)) b = f.blocks := by
  unfold block? withoutBlock at *
  generalize f.blocks = blocks at h ⊢
  induction blocks with
  | nil => simp at h
  | cons c blocks ih =>
    by_cases hc : c.id = id
    . rw [List.find?_cons_of_pos (by simpa using hc)] at h
      cases h
      simp [List.findIdx_cons, hc]
    . rw [List.find?_cons_of_neg (by simpa using hc)] at h
      simp [List.findIdx_cons, hc, ih h]

theorem relocate_error {offset : Nat} {e : CodeError}
    (h : (f.relocate id anchor offset).1 = .error e) : (f.relocate id anchor offset).2 = f := by
  unfold relocate at *
  split
  . rfl
  . next hne =>
    rw [if_neg hne] at h
    cases hb : f.block? id with
    | none => rfl
    | some b =>
      simp only [hb] at h ⊢
      split
      . next hi => simp [hi] at h
      . dsimp only
        rw [withoutBlock_insertIdx hb]

theorem moveNear_eq_ok_iff {offset : Nat} :
    f.moveNear id anchor offset = .ok g ↔ f.relocate id anchor offset = (.ok (), g) := by
  unfold moveNear
  split
  . next h => simp [h]
  . next h => simp [h]

theorem moveNear_eq_error_iff {offset : Nat} {e : CodeError} :
    f.moveNear id anchor offset = .error e ↔ (f.relocate id anchor offset).1 = .error e := by
  unfold moveNear
  split
  . next h => simp [h]
  . next h => simp [h]

theorem moveNear_splits {offset : Nat} (h : f.moveNear id anchor offset = .ok g) (hne : id ≠ anchor) :
    ∃ front moved back before target after, moved.id = id ∧ target.id = anchor ∧
      f.blocks = front ++ moved :: back ∧ front ++ back = before ++ target :: after ∧
      g = { f with blocks := (before ++ target :: after).insertIdx (before.length + offset) moved } := by
  obtain ⟨heq, -⟩ | ⟨moved, i, hmoved, -, hi, rfl⟩ := moveNear_ok h
  . exact absurd heq hne
  . obtain ⟨front, back, hid, hblocks, hrest⟩ := withoutBlock_splits hmoved
    rw [hrest] at hi ⊢
    obtain ⟨hlt, htarget, -⟩ := List.findIdx?_eq_some_iff_getElem.1 hi
    refine ⟨front, moved, back, (front ++ back).take i, (front ++ back)[i],
      (front ++ back).drop (i + 1), hid, by simpa using htarget, hblocks, ?_, ?_⟩
    . simp
    . rw [List.length_take_of_le (Nat.le_of_lt hlt)]
      simp

end Relocate

end Function

namespace Builder

theorem emit_inserts {b c : Builder} {i : Instruction} (h : b.emit i = .ok c) :
    b.function.code? b.block ≠ none ∧ ∃ place : Block → Nat,
      c.function = b.function.modifyBlock b.block fun block => block.insert (place block) i := by
  obtain ⟨f, id, position⟩ := b
  simp only [emit, Function.block] at h
  cases hblock : f.block? id with
  | none => simp [hblock, bind, Except.bind] at h
  | some block =>
    simp only [hblock, bind, Except.bind] at h
    refine ⟨by simp [Function.code?, hblock], ?_⟩
    cases position with
    | some position =>
      cases h
      exact ⟨fun _ => min position block.body.length, rfl⟩
    | none =>
      dsimp only at h
      split at h
      . cases h
      . cases h
        exact ⟨fun c => c.body.length, by simp [Block.insert]⟩

theorem build_cases (b : Builder) (r : Request) :
    (∃ e n, (b.build r).1 = .error e ∧ b.function.nextTemp ≤ n ∧
      (b.build r).2.function = { b.function with nextTemp := n }) ∨
    ∃ (draft : Draft) (place : Block → Nat), r.check b.function = .ok draft ∧
      b.function.code? b.block ≠ none ∧
      (b.build r).1 = .ok (draft.ty?.map (.temp b.function.nextTemp)) ∧
      (b.build r).2.function =
        { b.function.modifyBlock b.block fun block =>
            block.insert (place block) (draft.instruction b.function.nextTemp) with
          nextTemp := draft.nextTemp b.function.nextTemp } := by
  unfold build
  split
  . next e _ => exact .inl ⟨e, _, rfl, Nat.le_refl _, rfl⟩
  . next draft hcheck =>
    dsimp only
    rw [draft.newTemp_eq]
    split
    . next c hc =>
      obtain ⟨hcode, place, hfunction⟩ := emit_inserts hc
      exact .inr ⟨draft, place, hcheck, hcode, rfl, hfunction⟩
    . next e _ => exact .inl ⟨e, _, rfl, draft.le_nextTemp _, rfl⟩

theorem ids_build (b : Builder) (r : Request) :
    (b.build r).2.function.blocks.map Block.id = b.function.blocks.map Block.id := by
  obtain ⟨e, n, -, -, hfunction⟩ | ⟨draft, place, -, -, -, hfunction⟩ := b.build_cases r
  . rw [hfunction]
  . rw [hfunction]
    dsimp only [Function.modifyBlock]
    rw [map_key_modifyFirst]
    intro block _
    rfl

theorem build_static (b : Builder) (r : Request) :
    (b.build r).2.function.nextBlock = b.function.nextBlock ∧
      (b.build r).2.function.clearBody = b.function.clearBody := by
  obtain ⟨_, _, -, -, hfunction⟩ | ⟨_, _, -, -, -, hfunction⟩ := b.build_cases r
  . rw [hfunction]
    exact ⟨rfl, rfl⟩
  . rw [hfunction]
    exact ⟨rfl, rfl⟩

end Builder

namespace Function

inductive Edit where
  | addBlock (label : String)
  | newTemp
  | build (block : BlockId) (position : Option Nat) (r : Request)
  | moveAfter (id after : BlockId)
  | moveBefore (id before : BlockId)
  | removeBlock (id : BlockId)
  | clearBody

def edit (f : Function) : Edit → Function
  | .addBlock label => (f.addBlock label).2
  | .newTemp => f.newTemp.2
  | .build block position r => (Builder.build ⟨f, block, position⟩ r).2.function
  | .moveAfter id after => (f.relocate id after 1).2
  | .moveBefore id before => (f.relocate id before 0).2
  | .removeBlock id => f.removeBlock id
  | .clearBody => f.clearBody

def editAll (f : Function) (edits : List Edit) : Function := edits.foldl edit f

/--
Numbers that name one thing each: blocks have distinct numbers below the next free one, and the
temporaries that instructions define, which begin at `first`, are not free and have one definition.
-/
structure Numbered (first : Temp) (f : Function) : Prop where
  distinct : f.Distinct
  nodup : f.defined.Nodup
  range : ∀ temp ∈ f.defined, first ≤ temp ∧ temp < f.nextTemp
  first_le : first ≤ f.nextTemp

theorem clearBody_edit (f : Function) (e : Edit) : (f.edit e).clearBody = f.clearBody := by
  cases e with
  | addBlock | newTemp | removeBlock | clearBody => rfl
  | build block position r => exact (Builder.build_static ⟨f, block, position⟩ r).2
  | moveAfter | moveBefore =>
    unfold edit relocate
    dsimp only
    repeat' split
    all_goals rfl

theorem clearBody_editAll (f : Function) (edits : List Edit) :
    (f.editAll edits).clearBody = f.clearBody := by
  induction edits generalizing f with
  | nil => rfl
  | cons e edits ih => exact (ih _).trans (clearBody_edit f e)

variable {f g : Function} {id anchor : BlockId} {first : Temp}

namespace Numbered

theorem of_isDeclaration (h : f.isDeclaration) (hle : first ≤ f.nextTemp) : f.Numbered first := by
  have hblocks : f.blocks = [] := List.isEmpty_iff.1 h
  have hdefined : f.defined = [] := by simp [defined, instructions, hblocks]
  exact {
    distinct := ⟨by simp [hblocks], by simp [hblocks]⟩
    nodup := by simp [hdefined]
    range := by simp [hdefined]
    first_le := hle }

theorem of_subset (h : f.Numbered first) (hd : g.Distinct) (hnodup : g.defined.Nodup)
    (hsub : g.defined ⊆ f.defined) (hle : f.nextTemp ≤ g.nextTemp) : g.Numbered first where
  distinct := hd
  nodup := hnodup
  range := by
    intro temp htemp
    obtain ⟨hge, hlt⟩ := h.range temp (hsub htemp)
    exact ⟨hge, Nat.lt_of_lt_of_le hlt hle⟩
  first_le := Nat.le_trans h.first_le hle

theorem addBlock (h : f.Numbered first) (label : String) : (f.addBlock label).2.Numbered first := by
  have hdefined : defined (f.addBlock label).2 = f.defined := by
    unfold defined
    rw [instructions_addBlock]
  apply h.of_subset h.distinct.addBlock
  . rw [hdefined]
    exact h.nodup
  . rw [hdefined]
    exact List.Subset.refl _
  . exact Nat.le_refl _

theorem takeTemps (h : f.Numbered first) {n : Temp} (hle : f.nextTemp ≤ n) :
    Numbered first { f with nextTemp := n } :=
  h.of_subset ⟨h.distinct.nodup, h.distinct.below⟩ h.nodup (List.Subset.refl _) hle

theorem insert (h : f.Numbered first) {r : Request} {draft : Draft} (hdraft : r.Drafted f draft)
    (hcode : f.code? id ≠ none) (place : Block → Nat) :
    Numbered first { f.modifyBlock id fun block =>
        block.insert (place block) (draft.instruction f.nextTemp) with
      nextTemp := draft.nextTemp f.nextTemp } := by
  have hd : (f.modifyBlock id fun block =>
      block.insert (place block) (draft.instruction f.nextTemp)).Distinct :=
    h.distinct.modifyBlock fun _ => rfl
  have hdefined := (instructions_insert hcode place (draft.instruction f.nextTemp)).filterMap
    Instruction.result?
  have hresult := hdraft.result?_instruction f.nextTemp
  unfold Draft.nextTemp
  split
  . next hty =>
    rw [if_pos hty] at hresult
    rw [List.filterMap_cons_some hresult] at hdefined
    refine ⟨⟨hd.nodup, hd.below⟩, ?_, ?_, Nat.le_succ_of_le h.first_le⟩
    . -- the new result is the next free temporary, which no instruction defines yet
      refine hdefined.nodup_iff.2 (List.nodup_cons.2 ⟨?_, h.nodup⟩)
      intro hmem
      exact Nat.lt_irrefl _ (h.range _ hmem).2
    . intro temp htemp
      rcases List.mem_cons.1 (hdefined.mem_iff.1 htemp) with rfl | hmem
      . exact ⟨h.first_le, Nat.lt_succ_self _⟩
      . exact ⟨(h.range temp hmem).1, Nat.lt_succ_of_lt (h.range temp hmem).2⟩
  . next hty =>
    rw [if_neg hty] at hresult
    rw [List.filterMap_cons_none hresult] at hdefined
    exact h.of_subset ⟨hd.nodup, hd.below⟩ (hdefined.nodup_iff.2 h.nodup) hdefined.subset
      (Nat.le_refl _)

theorem build {b : Builder} (h : b.function.Numbered first) (r : Request) :
    (b.build r).2.function.Numbered first := by
  obtain ⟨e, n, -, hle, hfunction⟩ | ⟨draft, place, hcheck, hcode, -, hfunction⟩ := b.build_cases r
  . rw [hfunction]
    exact h.takeTemps hle
  . rw [hfunction]
    exact h.insert (Request.check_drafted _ _ _ hcheck) hcode place

theorem moveNear (h : f.Numbered first) {offset : Nat} (hle : offset ≤ 1)
    (hmove : f.moveNear id anchor offset = .ok g) : g.Numbered first := by
  have hp := moveNear_perm hmove hle
  have hstatic := moveNear_static hmove
  have hdefined : g.defined.Perm f.defined := (instructions_perm hp).filterMap _
  apply h.of_subset
  . apply h.distinct.of_perm hp
    rw [hstatic]
  . exact hdefined.nodup_iff.2 h.nodup
  . exact hdefined.subset
  . exact Nat.le_of_eq (by rw [hstatic])

theorem relocate (h : f.Numbered first) {offset : Nat} (hle : offset ≤ 1) :
    (f.relocate id anchor offset).2.Numbered first := by
  cases hrun : (f.relocate id anchor offset).1 with
  | error e =>
    rw [relocate_error hrun]
    exact h
  | ok u =>
    apply h.moveNear hle
    rw [moveNear_eq_ok_iff, ← hrun]

theorem removeBlock (h : f.Numbered first) : (f.removeBlock id).Numbered first := by
  have hsub : (f.removeBlock id).defined.Sublist f.defined := instructions_removeBlock.filterMap _
  exact h.of_subset h.distinct.removeBlock (hsub.nodup h.nodup) hsub.subset (Nat.le_refl _)

theorem edit (h : f.Numbered first) (hparams : first ≤ f.params.length) (e : Edit) :
    (f.edit e).Numbered first := by
  cases e with
  | addBlock label => exact h.addBlock label
  | newTemp => exact h.takeTemps (Nat.le_succ _)
  | build block position r => exact build (b := ⟨f, block, position⟩) h r
  | moveAfter id after => exact h.relocate (Nat.le_refl 1)
  | moveBefore id before => exact h.relocate (Nat.zero_le 1)
  | removeBlock id => exact h.removeBlock
  | clearBody => exact of_isDeclaration rfl hparams

theorem editAll (h : f.Numbered first) (hparams : first ≤ f.params.length) (edits : List Edit) :
    (f.editAll edits).Numbered first := by
  induction edits generalizing f with
  | nil => exact h
  | cons e edits ih =>
    apply ih (h.edit hparams e)
    have hkept := congrArg Function.params (clearBody_edit f e)
    change (f.edit e).params = f.params at hkept
    rwa [hkept]

end Numbered

/--
After any edits of a new function its numbers name one thing each. A block that is moved then stands
next to the anchor, behind it or in front of it, with all others as they were; a move that fails
leaves the function as it is.
-/
theorem numbered_after_edits (name : String) (result : Ty) (params : List Ty) (variadic : Bool)
    (edits : List Edit) :
    let f := editAll { name, result, params, variadic } edits
    (f.blocks.map Block.id).Nodup ∧ (∀ b ∈ f.blocks, b.id < f.nextBlock) ∧
    f.defined.Nodup ∧ (∀ temp ∈ f.defined, f.params.length ≤ temp ∧ temp < f.nextTemp) ∧
    (∀ a b g, a ≠ b → f.moveAfter a b = .ok g →
      ∃ front moved back before anchor after, moved.id = a ∧ anchor.id = b ∧
        f.blocks = front ++ moved :: back ∧ front ++ back = before ++ anchor :: after ∧
        g = { f with blocks := before ++ anchor :: moved :: after }) ∧
    (∀ a b g, a ≠ b → f.moveBefore a b = .ok g →
      ∃ front moved back before anchor after, moved.id = a ∧ anchor.id = b ∧
        f.blocks = front ++ moved :: back ∧ front ++ back = before ++ anchor :: after ∧
        g = { f with blocks := before ++ moved :: anchor :: after }) ∧
    (∀ a b e, f.moveAfter a b = .error e → f.edit (.moveAfter a b) = f) ∧
    ∀ a b e, f.moveBefore a b = .error e → f.edit (.moveBefore a b) = f := by
  intro f
  have hnew : Numbered params.length { name, result, params, variadic } :=
    .of_isDeclaration rfl (Nat.le_refl _)
  have h : f.Numbered params.length := hnew.editAll (Nat.le_refl _) edits
  have hparams : f.params = params := congrArg Function.params (clearBody_editAll _ edits)
  refine ⟨h.distinct.nodup, h.distinct.below, h.nodup, hparams ▸ h.range, ?_, ?_, ?_, ?_⟩
  . intro a b g hne hmove
    obtain ⟨front, moved, back, before, anchor, after, ha, hb, hold, hrest, rfl⟩ :=
      moveNear_splits hmove hne
    refine ⟨front, moved, back, before, anchor, after, ha, hb, hold, hrest, ?_⟩
    have hbehind := insertIdx_append_length (before ++ [anchor]) after moved
    simp only [List.length_append, List.length_singleton, List.append_assoc,
      List.singleton_append] at hbehind
    rw [hbehind]
  . intro a b g hne hmove
    obtain ⟨front, moved, back, before, anchor, after, ha, hb, hold, hrest, rfl⟩ :=
      moveNear_splits hmove hne
    refine ⟨front, moved, back, before, anchor, after, ha, hb, hold, hrest, ?_⟩
    rw [Nat.add_zero, insertIdx_append_length]
  . intro a b e hmove
    exact relocate_error (moveNear_eq_error_iff.1 hmove)
  . intro a b e hmove
    exact relocate_error (moveNear_eq_error_iff.1 hmove)

theorem numbered_after_refused_edits :
    let f := editAll ⟨"f", .void, [.i1], false, .external, [], 1, 0⟩
      [.addBlock "a", .addBlock "b", .addBlock "c",
        .build 0 none (.select (.temp 0 .i1) (.temp 0 .i1) (.temp 0 .i1)),
        .build 7 none .unreachable, .moveAfter 0 7]
    f.defined = [1] ∧ f.defined.Nodup ∧ f.edit (.moveBefore 2 7) = f ∧
      (∃ g, f.moveAfter 2 0 = .ok g ∧ ∃ front moved back before anchor after,
        moved.id = 2 ∧ anchor.id = 0 ∧ f.blocks = front ++ moved :: back ∧
        front ++ back = before ++ anchor :: after ∧
        g = { f with blocks := before ++ anchor :: moved :: after }) := by
  intro f
  obtain ⟨-, -, hnodup, -, hafter, -, -, hbefore⟩ := numbered_after_edits "f" .void [.i1] false
    [.addBlock "a", .addBlock "b", .addBlock "c",
      .build 0 none (.select (.temp 0 .i1) (.temp 0 .i1) (.temp 0 .i1)),
      .build 7 none .unreachable, .moveAfter 0 7]
  exact ⟨rfl, hnodup, hbefore 2 7 _ rfl, _, rfl, hafter 2 0 _ (by decide) rfl⟩

end Function

end ScriptedIR
