import ScriptedIR.Proofs.Straight

/-!
Growth of a function under construction. Whatever is generated, blocks keep what they hold: code is
only added, and only to blocks that do not end with a terminator yet. The one exception, the slot for
the returned value, is allocated at the start of the entry block and is left out of account here.
-/

namespace ScriptedIR

structure Work where
  function : Function
  entry : BlockId
  returnType : Ty
  returnSlot : Option Value
  returnBlock : Option BlockId

def GenState.work (s : GenState) : Work :=
  ⟨s.function, s.entry, s.returnType, s.returnSlot, s.returnBlock⟩

namespace Work

variable {u v w : Work} {id other : BlockId} {body : List Instruction}

def prologue (w : Work) (id : BlockId) : List Instruction :=
  match w.returnSlot with
  | some (.temp slot (.pointer ty)) => if id = w.entry then [.define slot (.alloca ty none)] else []
  | _ => []

theorem prologue_plain (w : Work) (id : BlockId) : ∀ i ∈ w.prologue id, i.isTerminator = false := by
  unfold prologue
  split
  . split
    . simp [Instruction.isTerminator]
    . simp
  . simp

theorem prologue_of_ne (w : Work) (h : id ≠ w.entry) : w.prologue id = [] := by
  unfold prologue
  split
  . rw [if_neg h]
  . rfl

theorem ends_prologue_append (w : Work) (id : BlockId) (body : List Instruction) :
    ends (w.prologue id ++ body) = ends body := by
  have hplain := w.prologue_plain id
  generalize w.prologue id = is at hplain
  induction is with
  | nil => rfl
  | cons i is ih =>
    rw [List.forall_mem_cons] at hplain
    rw [List.cons_append, ends_cons_plain hplain.1]
    exact ih hplain.2

def Holds (w : Work) (id : BlockId) (body : List Instruction) : Prop :=
  w.function.code? id = some (w.prologue id ++ body)

theorem Holds.unique {body' : List Instruction} (h : w.Holds id body) (h' : w.Holds id body') :
    body = body' := by
  unfold Holds at h h'
  rw [h, Option.some.injEq] at h'
  exact List.append_cancel_left h'

theorem Holds.present (h : w.Holds id body) : w.function.code? id ≠ none := by
  rw [h]
  simp

theorem holds_of_ne (h : id ≠ w.entry) (hcode : w.function.code? id = some body) :
    w.Holds id body := by
  rwa [Holds, prologue_of_ne w h]

/--
Blocks that control could run past the end of.
-/
def Open (w : Work) (id : BlockId) : Prop := ∃ body, w.Holds id body ∧ ends body = false

theorem Open.present (h : w.Open id) : w.function.code? id ≠ none := h.choose_spec.1.present

theorem not_open_of_holds (h : w.Holds id body) (hends : ends body) : ¬ w.Open id := by
  rintro ⟨body', h', hends'⟩
  rw [h.unique h', hends'] at hends
  cases hends

inductive Returning (w : Work) : Prop
  | undecided : w.returnBlock = none → w.returnSlot = none → Returning w
  | void {block : BlockId} : w.returnBlock = some block → w.returnSlot = none → block ≠ w.entry →
      w.returnType.isVoid = true → w.Holds block [.ret none] → Returning w
  | value {block : BlockId} {slot result : Temp} : w.returnBlock = some block →
      w.returnSlot = some (.temp slot (.pointer w.returnType)) → block ≠ w.entry →
      w.returnType.isVoid = false →
      w.Holds block [
        .define result (.load (.temp slot (.pointer w.returnType)) w.returnType),
        .ret (some (.temp result w.returnType))] → Returning w

structure Sane (w : Work) : Prop where
  distinct : w.function.Distinct
  sound : w.function.Sound
  first : w.function.entry? = some w.entry
  held : ∀ {id}, w.function.code? id ≠ none → ∃ body, w.Holds id body
  returning : w.Returning

structure Evolves (written : BlockId → Prop) (v w : Work) : Prop where
  entry : w.entry = v.entry
  returnType : w.returnType = v.returnType
  header : { w.function with
    blocks := v.function.blocks
    nextTemp := v.function.nextTemp
    nextBlock := v.function.nextBlock } = v.function
  nextTemp : v.function.nextTemp ≤ w.function.nextTemp
  kept : ∀ {id body}, v.Holds id body → ¬ written id → w.Holds id body
  grown : ∀ {id body}, v.Holds id body → ∃ more, w.Holds id (body ++ more)
  ended : ∀ {id body}, v.Holds id body → ends body → w.Holds id body
  returning : ∀ {block}, v.returnBlock = some block →
    w.returnBlock = some block ∧ w.returnSlot = v.returnSlot

namespace Evolves

variable {W W' : BlockId → Prop}

theorem refl (w : Work) : Evolves W w w where
  entry := rfl
  returnType := rfl
  header := rfl
  nextTemp := Nat.le_refl _
  kept h _ := h
  grown h := ⟨[], by simpa using h⟩
  ended h _ := h
  returning h := ⟨h, rfl⟩

theorem trans (h : Evolves W u v) (h' : Evolves W' v w)
    (hW : ∀ id, W' id → W id ∨ u.function.code? id = none) : Evolves W u w where
  entry := h'.entry.trans h.entry
  returnType := h'.returnType.trans h.returnType
  header := by
    have := congrArg (fun f : Function => { f with
      blocks := u.function.blocks
      nextTemp := u.function.nextTemp
      nextBlock := u.function.nextBlock }) h'.header
    exact this.trans h.header
  nextTemp := Nat.le_trans h.nextTemp h'.nextTemp
  kept hu hid := by
    apply h'.kept (h.kept hu hid)
    -- a block that only the second part writes to would be new, but this one was there
    intro hid'
    rcases hW _ hid' with hid' | hnone
    . exact hid hid'
    . exact hu.present hnone
  grown hu := by
    obtain ⟨more, hv⟩ := h.grown hu
    obtain ⟨more', hw⟩ := h'.grown hv
    exact ⟨more ++ more', by rwa [← List.append_assoc]⟩
  ended hu hends := h'.ended (h.ended hu hends) hends
  returning hu := by
    obtain ⟨hv, hslot⟩ := h.returning hu
    obtain ⟨hw, hslot'⟩ := h'.returning hv
    exact ⟨hw, hslot'.trans hslot⟩

theorem mono (h : Evolves W v w) (hW : ∀ id, W id → W' id ∨ v.function.code? id = none) :
    Evolves W' v w :=
  (refl v).trans h hW

theorem present (h : Evolves W v w) (hv : v.Sane) (hid : v.function.code? id ≠ none) :
    w.function.code? id ≠ none := by
  obtain ⟨body, hbody⟩ := hv.held hid
  obtain ⟨more, hmore⟩ := h.grown hbody
  exact hmore.present

end Evolves

theorem Returning.evolve {W : BlockId → Prop} (h : v.Returning) (hw : Evolves W v w)
    (hblock : w.returnBlock = v.returnBlock) (hslot : w.returnSlot = v.returnSlot) :
    w.Returning := by
  cases h with
  | undecided hnone hnone' => exact .undecided (hblock.trans hnone) (hslot.trans hnone')
  | void hsome hnone hne hvoid hholds =>
    refine .void (hblock.trans hsome) (hslot.trans hnone) ?_ ?_ (hw.ended hholds rfl)
    . rwa [hw.entry]
    . rwa [hw.returnType]
  | value hsome hsome' hne hvoid hholds =>
    rw [← hw.returnType] at hsome' hvoid hholds
    refine .value (hblock.trans hsome) (hslot.trans hsome') ?_ hvoid (hw.ended hholds rfl)
    rwa [hw.entry]

theorem Sane.entry_ne_nextBlock (h : w.Sane) : w.entry ≠ w.function.nextBlock :=
  Nat.ne_of_lt (h.distinct.lt_nextBlock (Function.code?_of_entry h.first))

section Put

variable {is : List Instruction} {nextTemp : Temp}

def put (w : Work) (id : BlockId) (is : List Instruction) (nextTemp : Temp) : Work :=
  { w with function := { w.function.append id is with nextTemp } }

theorem code?_put :
    (w.put id is nextTemp).function.code? other =
      if other = id then (w.function.code? id).map (· ++ is) else w.function.code? other :=
  Function.code?_append

theorem Holds.put (h : w.Holds id body) : (w.put id is nextTemp).Holds id (body ++ is) := by
  unfold Holds at h ⊢
  rw [code?_put, if_pos rfl, h, Option.map_some, List.append_assoc]
  rfl

theorem holds_put_of_ne (h : other ≠ id) :
    (w.put id is nextTemp).Holds other body ↔ w.Holds other body := by
  unfold Holds
  rw [code?_put, if_neg h]
  rfl

variable (hw : w.Sane) (hbody : w.Holds id body)

include hbody in
theorem put_evolves (hle : w.function.nextTemp ≤ nextTemp) (hopen : is ≠ [] → ends body = false) :
    Evolves (fun other => other = id ∧ is ≠ []) w (w.put id is nextTemp) := by
  have hput : (w.put id is nextTemp).Holds id (body ++ is) := hbody.put
  have hnil (h : is = []) : (w.put id is nextTemp).Holds id body := by
    rwa [h, List.append_nil, ← h] at hput
  exact {
    entry := rfl
    returnType := rfl
    header := rfl
    nextTemp := hle
    kept := by
      intro other old h hother
      by_cases hid : other = id
      . subst hid
        rw [h.unique hbody]
        exact hnil (Classical.not_not.1 fun his => hother ⟨rfl, his⟩)
      . exact (holds_put_of_ne hid).2 h
    grown := by
      intro other old h
      by_cases hid : other = id
      . subst hid
        exact ⟨is, h.put⟩
      . exact ⟨[], by simpa using (holds_put_of_ne hid).2 h⟩
    ended := by
      intro other old h hends
      by_cases hid : other = id
      . subst hid
        rw [h.unique hbody] at hends ⊢
        apply hnil
        by_cases his : is = []
        . exact his
        . rw [hopen his] at hends
          cases hends
      . exact (holds_put_of_ne hid).2 h
    returning := fun h => ⟨h, rfl⟩ }

include hw hbody in
theorem put_sane (hfits : w.function.Fits nextTemp is) (hopen : is ≠ [] → ends body = false) :
    (w.put id is nextTemp).Sane where
  distinct := ⟨hw.distinct.append.nodup, hw.distinct.append.below⟩
  sound := by
    apply hw.sound.append hfits
    intro code hcode his
    cases hcode.symm.trans hbody
    rw [ends_prologue_append]
    exact hopen his
  first := (Function.entry?_append).trans hw.first
  held {other} h := by
    by_cases hid : other = id
    . subst hid
      exact ⟨_, hbody.put⟩
    . rw [code?_put, if_neg hid] at h
      obtain ⟨old, hold⟩ := hw.held h
      exact ⟨old, (holds_put_of_ne hid).2 hold⟩
  returning := hw.returning.evolve (put_evolves hbody hfits.le hopen) rfl rfl

include hbody in
theorem open_put :
    (w.put id is nextTemp).Open other ↔
      (w.Open other ∧ other ≠ id) ∨ (other = id ∧ ends (body ++ is) = false) := by
  by_cases hid : other = id
  . subst hid
    simp only [ne_eq, not_true_eq_false, and_false, true_and, false_or]
    constructor
    . rintro ⟨old, hold, hends⟩
      rwa [← hold.unique hbody.put]
    . intro hends
      exact ⟨_, hbody.put, hends⟩
  . simp [Open, holds_put_of_ne hid, hid]

end Put

section Close

variable {i : Instruction}

def close (w : Work) (id : BlockId) (i : Instruction) : Work :=
  { w with function := w.function.append id [i] }

theorem close_evolves (h : w.Open id) : Evolves (· = id) w (w.close id i) := by
  obtain ⟨body, hbody, hends⟩ := h
  exact (put_evolves hbody (Nat.le_refl _) fun _ => hends).mono fun _ hid => .inl hid.1

theorem close_sane (hw : w.Sane) (h : w.Open id) (hi : w.function.Terminates i) :
    (w.close id i).Sane := by
  obtain ⟨body, hbody, hends⟩ := h
  exact put_sane hw hbody hi.fits fun _ => hends

theorem open_close (h : w.Open id) (hi : w.function.Terminates i) :
    (w.close id i).Open other ↔ w.Open other ∧ other ≠ id := by
  obtain ⟨body, hbody, -⟩ := h
  change (w.put id [i] w.function.nextTemp).Open other ↔ _
  rw [open_put hbody, ends_concat, hi.1]
  simp

theorem Holds.close (h : w.Holds id body) : (w.close id i).Holds id (body ++ [i]) := h.put

theorem holds_close_of_ne (h : other ≠ id) :
    (w.close id i).Holds other body ↔ w.Holds other body := holds_put_of_ne h

end Close

section Grow

variable {label : String}

def grow (w : Work) (label : String) : Work :=
  { w with function := (w.function.addBlock label).2 }

variable (hw : w.Sane)

include hw

theorem holds_grow (h : other ≠ w.function.nextBlock) :
    (w.grow label).Holds other body ↔ w.Holds other body := by
  unfold Holds
  rw [grow, Function.code?_addBlock hw.distinct, if_neg h]
  rfl

theorem holds_grow_new : (w.grow label).Holds w.function.nextBlock [] := by
  have hnone : (w.grow label).prologue w.function.nextBlock = [] :=
    prologue_of_ne _ (Ne.symm hw.entry_ne_nextBlock)
  unfold Holds
  rw [hnone, grow, Function.code?_addBlock hw.distinct]
  simp

theorem grow_evolves (W : BlockId → Prop) : Evolves W w (w.grow label) := by
  have hkept {id body} (h : w.Holds id body) : (w.grow label).Holds id body := by
    apply (holds_grow hw _).2 h
    exact Nat.ne_of_lt (hw.distinct.lt_nextBlock h.present)
  exact {
    entry := rfl
    returnType := rfl
    header := rfl
    nextTemp := Nat.le_refl _
    kept := fun h _ => hkept h
    grown := fun h => ⟨[], by simpa using hkept h⟩
    ended := fun h _ => hkept h
    returning := fun h => ⟨h, rfl⟩ }

theorem grow_sane : (w.grow label).Sane where
  distinct := hw.distinct.addBlock
  sound := hw.sound.addBlock hw.distinct
  first := Function.entry?_addBlock hw.first
  held {other} h := by
    by_cases hid : other = w.function.nextBlock
    . subst hid
      exact ⟨[], holds_grow_new hw⟩
    . rw [grow, Function.code?_addBlock hw.distinct, if_neg hid] at h
      obtain ⟨old, hold⟩ := hw.held h
      exact ⟨old, (holds_grow hw hid).2 hold⟩
  returning := hw.returning.evolve (grow_evolves hw fun _ => False) rfl rfl

theorem open_grow :
    (w.grow label).Open other ↔ w.Open other ∨ other = w.function.nextBlock := by
  by_cases hid : other = w.function.nextBlock
  . subst hid
    simp only [or_true, iff_true]
    exact ⟨[], holds_grow_new hw, rfl⟩
  . simp [Open, holds_grow hw hid, hid]

end Grow

section Move

variable {anchor : BlockId} {g : Function} (hw : w.Sane) (h : w.function.moveAfter id anchor = .ok g)

include hw h

theorem holds_move : Holds { w with function := g } other body ↔ w.Holds other body := by
  unfold Holds
  rw [Function.code?_moveAfter hw.distinct h]
  rfl

theorem move_evolves (W : BlockId → Prop) : Evolves W w { w with function := g } where
  entry := rfl
  returnType := rfl
  header := by rw [Function.moveAfter_static h]
  nextTemp := Nat.le_of_eq (by rw [Function.moveAfter_static h])
  kept hholds _ := (holds_move hw h).2 hholds
  grown hholds := ⟨[], by simpa using (holds_move hw h).2 hholds⟩
  ended hholds _ := (holds_move hw h).2 hholds
  returning hsome := ⟨hsome, rfl⟩

theorem move_sane (hne : id ≠ w.entry) : Sane { w with function := g } where
  distinct := hw.distinct.moveAfter h
  sound := hw.sound.moveAfter hw.distinct h
  first := Function.entry?_moveAfter h hw.first hne
  held hcode := by
    rw [Function.code?_moveAfter hw.distinct h] at hcode
    obtain ⟨old, hold⟩ := hw.held hcode
    exact ⟨old, (holds_move hw h).2 hold⟩
  returning := hw.returning.evolve (move_evolves hw h fun _ => False) rfl rfl

theorem open_move : Open { w with function := g } other ↔ w.Open other := by
  simp [Open, holds_move hw h]

end Move

section Returned

def returnCode (w : Work) : List Instruction :=
  if w.returnType.isVoid then [.ret none]
  else
    let slot := w.function.nextTemp
    [ .define (slot + 1) (.load (.temp slot (.pointer w.returnType)) w.returnType),
      .ret (some (.temp (slot + 1) w.returnType)) ]

def returned (w : Work) : Work :=
  let block := w.function.nextBlock
  let slot := w.function.nextTemp
  let f := (w.function.addBlock "return").2
  if w.returnType.isVoid then
    { w with
      function := f.append block w.returnCode
      returnSlot := none
      returnBlock := some block }
  else
    let f := { f.prepend w.entry (.define slot (.alloca w.returnType none)) with nextTemp := slot + 1 }
    { w with
      function := { f.append block w.returnCode with nextTemp := slot + 2 }
      returnSlot := some (.temp slot (.pointer w.returnType))
      returnBlock := some block }

theorem returned_entry (w : Work) : w.returned.entry = w.entry := by
  unfold returned
  dsimp only
  split <;> rfl

theorem returned_returnType (w : Work) : w.returned.returnType = w.returnType := by
  unfold returned
  dsimp only
  split <;> rfl

theorem returned_returnBlock (w : Work) : w.returned.returnBlock = some w.function.nextBlock := by
  unfold returned
  dsimp only
  split <;> rfl

theorem code?_returned (hd : w.function.Distinct) (hne : w.entry ≠ w.function.nextBlock) :
    w.returned.function.code? id =
      if id = w.function.nextBlock then some w.returnCode
      else if id = w.entry ∧ w.returnType.isVoid = false then
        (w.function.code? id).map (.define w.function.nextTemp (.alloca w.returnType none) :: ·)
      else w.function.code? id := by
  unfold returned
  dsimp only
  split
  . next hvoid =>
    rw [Function.code?_append, Function.code?_addBlock hd]
    by_cases hid : id = w.function.nextBlock
    . simp [hid]
    . simp [hid, hvoid, Function.code?_addBlock hd]
  . next hvoid =>
    change ((Function.append _ _ _).code? id) = _
    rw [Function.code?_append]
    change (if _ then ((Function.prepend _ _ _).code? _).map _ else ((Function.prepend _ _ _).code? _)) = _
    rw [Function.code?_prepend, Function.code?_prepend]
    by_cases hid : id = w.function.nextBlock
    . simp [hid, Ne.symm hne, Function.code?_addBlock hd]
    . by_cases hid' : id = w.entry
      . simp [hid', hvoid, hne, Function.code?_addBlock hd]
      . simp [hid, hid', Function.code?_addBlock hd]

theorem prologue_returned (w : Work) :
    w.returned.prologue id =
      if id = w.entry ∧ w.returnType.isVoid = false then
        [.define w.function.nextTemp (.alloca w.returnType none)]
      else [] := by
  unfold prologue returned
  dsimp only
  by_cases hvoid : w.returnType.isVoid <;> simp [hvoid]

variable (hw : w.Sane) (hnone : w.returnBlock = none)

include hw hnone

theorem returnSlot_eq_none : w.returnSlot = none := by
  cases hw.returning with
  | undecided _ hslot => exact hslot
  | void hsome | value hsome => simp [hnone] at hsome

theorem holds_returned (hne : id ≠ w.function.nextBlock) :
    w.returned.Holds id body ↔ w.Holds id body := by
  have hprologue : w.prologue id = [] := by
    simp [prologue, returnSlot_eq_none hw hnone]
  unfold Holds
  rw [code?_returned hw.distinct hw.entry_ne_nextBlock, if_neg hne, prologue_returned, hprologue]
  split
  . cases w.function.code? id <;> simp
  . rfl

omit hnone in
theorem holds_returned_new : w.returned.Holds w.function.nextBlock w.returnCode := by
  unfold Holds
  rw [code?_returned hw.distinct hw.entry_ne_nextBlock, if_pos rfl, prologue_returned]
  simp [Ne.symm hw.entry_ne_nextBlock]

omit hw hnone in
theorem ends_returnCode (w : Work) : ends w.returnCode := by
  unfold returnCode
  split <;> rfl

theorem returned_evolves (W : BlockId → Prop) : Evolves W w w.returned := by
  have hkept {id body} (h : w.Holds id body) : w.returned.Holds id body := by
    apply (holds_returned hw hnone _).2 h
    exact Nat.ne_of_lt (hw.distinct.lt_nextBlock h.present)
  exact {
    entry := w.returned_entry
    returnType := w.returned_returnType
    header := by
      unfold returned
      dsimp only
      split <;> rfl
    nextTemp := by
      unfold returned
      dsimp only
      split
      . exact Nat.le_refl _
      . exact Nat.le_add_right _ _
    kept := fun h _ => hkept h
    grown := fun h => ⟨[], by simpa using hkept h⟩
    ended := fun h _ => hkept h
    returning := fun h => by simp [hnone] at h }

omit hnone in
theorem returned_sound : w.returned.function.Sound := by
  have hd := hw.distinct
  have hs : (w.function.addBlock "return").2.Sound := hw.sound.addBlock hd
  unfold returned returnCode
  dsimp only
  split
  . next hvoid =>
    have hfits : Function.Fits (w.function.addBlock "return").2 w.function.nextTemp [.ret none] :=
      ⟨Nat.le_refl _, by simp, by simp [Instruction.successors], by simp [Instruction.result?]⟩
    apply hs.append hfits
    intro code hcode _
    rw [Function.code?_addBlock hd, if_pos rfl] at hcode
    cases hcode
    rfl
  . next hvoid =>
    apply Function.Sound.append
    . exact hs.prepend rfl (Nat.le_succ _) (by simp [Instruction.result?])
    . refine ⟨Nat.le_succ _, ?_, ?_, ?_⟩
      . simp [Instruction.isTerminator]
      . simp [Instruction.successors]
      . simp [Instruction.result?]
    . intro code hcode _
      change (Function.prepend _ _ _).code? _ = _ at hcode
      rw [Function.code?_prepend, if_neg (Ne.symm hw.entry_ne_nextBlock),
        Function.code?_addBlock hd, if_pos rfl] at hcode
      cases hcode
      rfl

omit hnone in
theorem returned_returning : w.returned.Returning := by
  have hne := Ne.symm hw.entry_ne_nextBlock
  have hholds := holds_returned_new hw
  by_cases hvoid : w.returnType.isVoid
  . refine .void w.returned_returnBlock ?_ ?_ ?_ ?_
    . simp [returned, hvoid]
    . rwa [returned_entry]
    . rwa [returned_returnType]
    . rwa [returnCode, if_pos hvoid] at hholds
  . have hslot : w.returned.returnSlot =
        some (.temp w.function.nextTemp (.pointer w.returned.returnType)) := by
      simp [returned, hvoid]
    rw [returnCode, if_neg hvoid, ← returned_returnType] at hholds
    refine .value w.returned_returnBlock hslot ?_ ?_ hholds
    . rwa [returned_entry]
    . rw [returned_returnType]
      simpa using hvoid

theorem returned_sane : w.returned.Sane where
  distinct := by
    have hd : (w.function.addBlock "return").2.Distinct := hw.distinct.addBlock
    unfold returned
    dsimp only
    split
    . exact hd.append
    . exact ⟨hd.prepend.append.nodup, hd.prepend.append.below⟩
  sound := returned_sound hw
  first := by
    rw [returned_entry, ← Function.entry?_addBlock hw.first]
    unfold returned
    dsimp only
    split
    . exact Function.entry?_append
    . exact Function.entry?_append.trans Function.entry?_prepend
  held {id} h := by
    by_cases hid : id = w.function.nextBlock
    . subst hid
      exact ⟨_, holds_returned_new hw⟩
    . have hcode : w.function.code? id ≠ none := by
        rw [code?_returned hw.distinct hw.entry_ne_nextBlock, if_neg hid] at h
        split at h
        . simpa using h
        . exact h
      obtain ⟨body, hbody⟩ := hw.held hcode
      exact ⟨body, (holds_returned hw hnone hid).2 hbody⟩
  returning := returned_returning hw

theorem open_returned : w.returned.Open id ↔ w.Open id := by
  by_cases hid : id = w.function.nextBlock
  . subst hid
    constructor
    . intro h
      exact absurd h (not_open_of_holds (holds_returned_new hw) w.ends_returnCode)
    . intro h
      exact absurd hw.distinct.code?_nextBlock h.present
  . simp [Open, holds_returned hw hnone hid]

end Returned

end Work

end ScriptedIR
