import ScriptedIR.Proofs.Orderly

/-!
The shared return block. Once it is there it stays as it is: it returns what is in the return slot,
whose allocation stands at the start of the entry block, and nothing that is generated later changes
either of them.
-/

namespace ScriptedIR

/--
How a function that returns values of a type exits: the code of the return block, what stands at the
start of the entry block, and the slot for the value.
-/
inductive Exit (ty : Ty) : List Instruction → List Instruction → Option Value → Prop
  | void : ty.isVoid = true → Exit ty [.ret none] [] none
  | value (slot result : Temp) : ty.isVoid = false →
      Exit ty
        [ .define result (.load (.temp slot (.pointer ty)) ty), .ret (some (.temp result ty)) ]
        [ .define slot (.alloca ty none) ] (some (.temp slot (.pointer ty)))

theorem Exit.ends {ty : Ty} {code front : List Instruction} {slot : Option Value}
    (h : Exit ty code front slot) : ends code = true := by
  cases h <;> rfl

namespace GenState

variable {s t : GenState} {b : BlockId} {code front : List Instruction} {slot : Option Value}

structure Leaves (b : BlockId) (code front : List Instruction) (slot : Option Value) (s : GenState) :
    Prop where
  distinct : s.function.Distinct
  block : s.returnBlock = some b
  slot : s.returnSlot = slot
  code : s.function.code? b = some code
  front : ∃ rest, s.function.code? s.entry = some (front ++ rest)

namespace Leaves

theorem sameCode (h : s.Leaves b code front slot) (hsame : s.SameCode t) :
    t.Leaves b code front slot where
  distinct := by
    rw [hsame.function]
    exact h.distinct
  block := hsame.returnBlock.trans h.block
  slot := hsame.returnSlot.trans h.slot
  code := by
    rw [hsame.function]
    exact h.code
  front := by
    rw [hsame.function, hsame.entry]
    exact h.front

theorem append (h : s.Leaves b code front slot) (hends : ends code = true) (block : BlockId)
    (r : Request) : (Gen.exec (Gen.emitAt block none r) s).2.Leaves b code front slot := by
  rcases hrun : Gen.exec (Gen.emitAt block none r) s with ⟨e | v, t⟩
  . obtain ⟨n, -, rfl⟩ := Gen.exec_emitAt_error hrun
    exact ⟨⟨h.distinct.nodup, h.distinct.below⟩, h.block, h.slot, h.code, h.front⟩
  . obtain ⟨draft, old, -, hold, hopen, -, rfl⟩ := Gen.exec_emitAt.1 hrun
    have hcode? (id) : (s.function.emitted block draft).code? id =
        if id = block then
          (s.function.code? block).map (· ++ [draft.instruction s.function.nextTemp])
        else s.function.code? id := Function.code?_append
    -- the return block ends with a terminator, so it is another block that takes the instruction
    have hne : b ≠ block := by
      rintro rfl
      cases hold.symm.trans h.code
      rw [hends] at hopen
      cases hopen
    refine ⟨⟨h.distinct.append.nodup, h.distinct.append.below⟩, h.block, h.slot, ?_, ?_⟩
    . dsimp only
      rw [hcode?, if_neg hne]
      exact h.code
    . obtain ⟨rest, hrest⟩ := h.front
      dsimp only
      rw [hcode?]
      split
      . next heq =>
        rw [← heq, hrest]
        exact ⟨rest ++ [draft.instruction s.function.nextTemp], by simp⟩
      . exact ⟨rest, hrest⟩

theorem grow (h : s.Leaves b code front slot) (label : String) :
    (s.grow label).Leaves b code front slot := by
  have hcode? {id code} (hcode : s.function.code? id = some code) :
      (s.grow label).function.code? id = some code := by
    have hlt : id < s.function.nextBlock := h.distinct.lt_nextBlock (by simp [hcode])
    unfold GenState.grow
    dsimp only
    rw [Function.code?_addBlock h.distinct, if_neg (Nat.ne_of_lt hlt)]
    exact hcode
  obtain ⟨rest, hrest⟩ := h.front
  exact ⟨h.distinct.addBlock, h.block, h.slot, hcode? h.code, rest, hcode? hrest⟩

theorem move (h : s.Leaves b code front slot) {f : Function} {block after : BlockId}
    (hmove : s.function.moveAfter block after = .ok f) :
    Leaves b code front slot { s with function := f } := by
  obtain ⟨rest, hrest⟩ := h.front
  refine ⟨h.distinct.moveAfter hmove, h.block, h.slot, ?_, rest, ?_⟩
  . exact (Function.code?_moveAfter h.distinct hmove).trans h.code
  . exact (Function.code?_moveAfter h.distinct hmove).trans hrest

theorem growing (hends : ends code = true) :
    Gen.Growing (Leaves b code front slot) fun _ => True where
  same := sameCode
  appends block r h := h.append hends block r
  grows label h := ⟨h.grow label, trivial⟩
  move h _ hmove := h.move hmove

theorem returnBlock_keeps : Gen.Keeps (Leaves b code front slot) Gen.returnBlock := by
  intro s h
  rw [Gen.exec_returnBlock_some h.block]
  exact ⟨h, rfl, fun _ _ => trivial⟩

end Leaves

structure Founded (s : GenState) : Prop extends s.Formed where
  present : s.entry ∈ s.function.blocks.map Block.id

theorem Founded.loose : Gen.Loose Founded fun _ => True where
  same h hsame :=
    { Formed.loose.same h.toFormed hsame with present := HasEntry.loose.same h.present hsame }
  appends block r h :=
    { h.toFormed.append block r with present := HasEntry.loose.appends block r h.present }
  allocates block ty h :=
    { h.toFormed.allocate block ty with present := HasEntry.loose.allocates block ty h.present }
  grows label h :=
    ⟨{ (Formed.loose.grows label h.toFormed).1 with
      present := (HasEntry.loose.grows label h.present).1 }, trivial⟩
  returns _ h _ := { h with present := h.present }
  move h _ hmove :=
    { Formed.loose.move h.toFormed trivial hmove with
      present := HasEntry.loose.move h.present trivial hmove }

structure Exiting (s : GenState) : Prop extends s.Founded where
  exit : s.returnBlock = none ∨ ∃ b code front slot,
    s.Leaves b code front slot ∧ Exit s.returnType code front slot

namespace Exiting

theorem carry (h : s.Exiting) (hfounded : t.Founded) (hblock : t.returnBlock = s.returnBlock)
    (hty : t.returnType = s.returnType)
    (hleaves : ∀ {b code front slot}, ends code = true →
      s.Leaves b code front slot → t.Leaves b code front slot) : t.Exiting := by
  refine { hfounded with exit := ?_ }
  rw [hblock, hty]
  obtain hnone | ⟨b, code, front, slot, hs, hexit⟩ := h.exit
  . exact .inl hnone
  . exact .inr ⟨b, code, front, slot, hleaves hexit.ends hs, hexit⟩

theorem growing : Gen.Growing Exiting fun _ => True where
  same h hsame :=
    h.carry (Founded.loose.same h.toFounded hsame) hsame.returnBlock hsame.returnType
      fun _ hs => hs.sameCode hsame
  appends block r h :=
    h.carry (Founded.loose.appends block r h.toFounded) rfl rfl fun hends hs =>
      hs.append hends block r
  grows label h :=
    ⟨h.carry (Founded.loose.grows label h.toFounded).1 rfl rfl fun _ hs => hs.grow label, trivial⟩
  move h _ hmove :=
    h.carry (Founded.loose.move h.toFounded trivial hmove) rfl rfl fun _ hs => hs.move hmove

theorem leaves_returned (h : s.Founded) (hd : s.returned.function.Distinct) :
    ∃ b code front slot, s.returned.Leaves b code front slot ∧ Exit s.returnType code front slot := by
  obtain ⟨entry, hentry, hid⟩ := List.mem_map.1 h.present
  have hcode := h.distinct.code?_of_mem hentry
  rw [hid] at hcode
  have hne : s.entry ≠ s.function.nextBlock := hid ▸ Nat.ne_of_lt (h.distinct.below entry hentry)
  have hcode? (id) : s.returned.function.code? id = _ := Work.code?_returned h.distinct hne
  cases hvoid : s.returnType.isVoid with
  | true =>
    refine ⟨s.function.nextBlock, _, _, _, ⟨hd, rfl, ?_, ?_, entry.body, ?_⟩, .void hvoid⟩
    . simp [returned, Work.returned, work, hvoid]
    . simp [hcode?, Work.returnCode, work, hvoid]
    . change s.returned.function.code? s.entry = _
      simp [hcode?, hne, work, hvoid, hcode]
  | false =>
    refine ⟨s.function.nextBlock, _, _, _, ⟨hd, rfl, ?_, ?_, entry.body, ?_⟩,
      .value s.function.nextTemp (s.function.nextTemp + 1) hvoid⟩
    . simp [returned, Work.returned, work, hvoid]
    . simp [hcode?, Work.returnCode, work, hvoid]
    . change s.returned.function.code? s.entry = _
      simp [hcode?, hne, work, hvoid, hcode]

theorem returnBlock_keeps : Gen.Keeps Exiting Gen.returnBlock := by
  intro s h
  obtain ⟨hfounded, hstart, -⟩ := Founded.loose.returnBlock_keeps s h.toFounded
  refine ⟨?_, hstart, fun _ _ => trivial⟩
  rcases hrun : Gen.exec Gen.returnBlock s with ⟨e | b, t⟩
  . rw [hrun] at hfounded
    exact { hfounded with exit := .inl (Gen.exec_returnBlock_error hrun).2 }
  . rw [hrun] at hfounded
    obtain ⟨-, rfl⟩ | ⟨-, rfl, rfl⟩ := Gen.exec_returnBlock hrun
    . exact h
    . exact { hfounded with exit := .inr (leaves_returned h.toFounded hfounded.distinct) }

end Exiting

end GenState

end ScriptedIR
