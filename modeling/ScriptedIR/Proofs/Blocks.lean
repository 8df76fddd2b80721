import ScriptedIR.Builder
import ScriptedIR.Proofs.Lookup
import ScriptedIR.Proofs.Verified

/-!
Blocks by number. As long as the numbers of its blocks are distinct, a function is a map from numbers
to code: adding, filling, moving and removing blocks are stated as changes of that map, and
verification as a property of it.
-/

namespace ScriptedIR

theorem Block.isTerminated_eq (b : Block) :
    b.isTerminated = b.body.getLast?.any Instruction.isTerminator := by
  unfold isTerminated terminator?
  cases b.body.getLast? with
  | none => rfl
  | some i => cases hi : i.isTerminator <;> simp [Option.filter, hi]

theorem Instruction.successors_eq_nil {i : Instruction} (h : i.isTerminator = false) :
    i.successors = [] := by
  cases i <;> first | rfl | cases h

theorem Instruction.result?_eq_none {i : Instruction} (h : i.isTerminator = true) :
    i.result? = none := by
  cases i <;> first | rfl | cases h

def ends (code : List Instruction) : Bool := code.getLast?.any Instruction.isTerminator

@[simp]
theorem ends_nil : ends [] = false := rfl

@[simp]
theorem ends_concat (code : List Instruction) (i : Instruction) :
    ends (code ++ [i]) = i.isTerminator := by
  simp [ends]

theorem ends_append_plain {code is : List Instruction} (h : ∀ i ∈ is, i.isTerminator = false)
    (hcode : ends code = false) : ends (code ++ is) = false := by
  rcases List.eq_nil_or_concat is with rfl | ⟨is, i, rfl⟩
  . simpa using hcode
  . rw [List.concat_eq_append, ← List.append_assoc, ends_concat]
    apply h
    simp

theorem ends_cons_plain {i : Instruction} (h : i.isTerminator = false) (code : List Instruction) :
    ends (i :: code) = ends code := by
  cases code with
  | nil => simp [ends, h]
  | cons j code => simp [ends]

namespace Function

variable {f g : Function} {id other : BlockId}

def code? (f : Function) (id : BlockId) : Option (List Instruction) := (f.block? id).map Block.body

theorem code?_eq_none_iff : f.code? id = none ↔ f.block? id = none := by
  simp [code?]

structure Distinct (f : Function) : Prop where
  nodup : (f.blocks.map Block.id).Nodup
  below : ∀ b ∈ f.blocks, b.id < f.nextBlock

theorem Distinct.block?_eq_some_iff (h : f.Distinct) {b : Block} :
    f.block? id = some b ↔ b ∈ f.blocks ∧ b.id = id :=
  find?_key_eq_some_iff h.nodup

theorem Distinct.code?_of_mem (h : f.Distinct) {b : Block} (hb : b ∈ f.blocks) :
    f.code? b.id = some b.body := by
  simp [code?, h.block?_eq_some_iff.2 ⟨hb, rfl⟩]

theorem exists_mem_of_code? {code : List Instruction} (h : f.code? id = some code) :
    ∃ b ∈ f.blocks, b.id = id ∧ b.body = code := by
  obtain ⟨b, hb, rfl⟩ := Option.map_eq_some_iff.1 h
  exact ⟨b, List.mem_of_find?_eq_some hb, by simpa using List.find?_some hb, rfl⟩

theorem Distinct.lt_nextBlock (h : f.Distinct) (hid : f.code? id ≠ none) : id < f.nextBlock := by
  obtain ⟨code, hcode⟩ := Option.ne_none_iff_exists'.1 hid
  obtain ⟨b, hb, rfl, -⟩ := exists_mem_of_code? hcode
  exact h.below b hb

theorem Distinct.code?_nextBlock (h : f.Distinct) : f.code? f.nextBlock = none := by
  cases hcode : f.code? f.nextBlock with
  | none => rfl
  | some code => exact absurd (h.lt_nextBlock (by simp [hcode])) (Nat.lt_irrefl _)

theorem code?_of_entry (h : f.entry? = some id) : f.code? id ≠ none := by
  intro hnone
  rw [code?_eq_none_iff, block?, List.find?_eq_none] at hnone
  unfold entry? at h
  obtain ⟨b, hb, rfl⟩ := Option.map_eq_some_iff.1 h
  exact hnone b (List.mem_of_head? hb) (by simp)

-- Only the order of the blocks differs, so that look-ups agree.
theorem block?_eq_of_perm (h : (f.blocks.map Block.id).Nodup) (hp : g.blocks.Perm f.blocks) :
    g.block? id = f.block? id := by
  have hg : (g.blocks.map Block.id).Nodup := (hp.map Block.id).nodup_iff.2 h
  apply Option.ext
  intro b
  rw [block?, block?, find?_key_eq_some_iff hg, find?_key_eq_some_iff h, hp.mem_iff]

theorem code?_eq_of_perm (h : (f.blocks.map Block.id).Nodup) (hp : g.blocks.Perm f.blocks) :
    g.code? id = f.code? id := by
  unfold code?
  rw [block?_eq_of_perm h hp]

section AddBlock

variable {label : String}

theorem Distinct.addBlock (h : f.Distinct) : (f.addBlock label).2.Distinct := by
  constructor
  . simp only [Function.addBlock, List.map_append, List.map_cons, List.map_nil]
    rw [List.nodup_append]
    refine ⟨h.nodup, by simp, ?_⟩
    intro a ha b hb
    obtain ⟨c, hc, rfl⟩ := List.mem_map.1 ha
    rw [List.mem_singleton.1 hb]
    exact Nat.ne_of_lt (h.below c hc)
  . intro b hb
    simp only [Function.addBlock, List.mem_append, List.mem_singleton] at hb ⊢
    rcases hb with hb | rfl
    . exact Nat.lt_succ_of_lt (h.below b hb)
    . exact Nat.lt_succ_self _

theorem code?_addBlock (h : f.Distinct) :
    (f.addBlock label).2.code? id = if id = f.nextBlock then some [] else f.code? id := by
  have hnone := code?_eq_none_iff.1 h.code?_nextBlock
  unfold block? at hnone
  simp only [code?, block?, Function.addBlock, List.find?_append]
  split
  . next hid => simp [hid, hnone]
  . next hid => simp [Ne.symm hid]

theorem entry?_addBlock (h : f.entry? = some id) : Function.entry? (f.addBlock label).2 = some id := by
  unfold entry? at h ⊢
  simp only [Function.addBlock]
  cases hblocks : f.blocks with
  | nil => simp [hblocks] at h
  | cons b blocks => simpa [hblocks] using h

end AddBlock

section ModifyBlock

variable {change : Block → Block}

theorem Distinct.modifyBlock (h : f.Distinct) (hchange : ∀ b, (change b).id = b.id) :
    (f.modifyBlock id change).Distinct := by
  constructor
  . unfold Function.modifyBlock
    rw [map_key_modifyFirst fun b _ => hchange b]
    exact h.nodup
  . intro b hb
    have hid := List.mem_map_of_mem (f := Block.id) hb
    unfold Function.modifyBlock at hid
    rw [map_key_modifyFirst fun b _ => hchange b] at hid
    obtain ⟨c, hc, heq⟩ := List.mem_map.1 hid
    rw [← heq]
    exact h.below c hc

theorem code?_modifyBlock (hchange : ∀ b, (change b).id = b.id) :
    (f.modifyBlock id change).code? other =
      if other = id then (f.block? id).map (fun b => (change b).body) else f.code? other := by
  simp only [code?, block?, modifyBlock]
  rw [find?_modifyFirst fun b hb => (hchange b).trans hb]
  split
  . rw [Option.map_map]
    rfl
  . rfl

theorem entry?_modifyBlock (hchange : ∀ b, (change b).id = b.id) :
    Function.entry? (f.modifyBlock id change) = f.entry? := by
  unfold entry? modifyBlock
  rw [← List.head?_map, map_key_modifyFirst (fun b _ => hchange b), List.head?_map]

end ModifyBlock

def append (f : Function) (id : BlockId) (is : List Instruction) : Function :=
  f.modifyBlock id fun b => { b with body := b.body ++ is }

theorem append_nil : f.append id [] = f := by
  have (blocks : List Block) :
      modifyFirst (·.id = id) (fun b => { b with body := b.body ++ [] }) blocks = blocks := by
    induction blocks with
    | nil => rfl
    | cons b blocks ih =>
      rw [modifyFirst]
      split
      . simp
      . rw [ih]
  unfold append modifyBlock
  rw [this]

theorem append_append {is js : List Instruction} :
    (f.append id is).append id js = f.append id (is ++ js) := by
  have (blocks : List Block) :
      modifyFirst (·.id = id) (fun b => { b with body := b.body ++ js })
        (modifyFirst (·.id = id) (fun b => { b with body := b.body ++ is }) blocks) =
      modifyFirst (·.id = id) (fun b => { b with body := b.body ++ (is ++ js) }) blocks := by
    induction blocks with
    | nil => rfl
    | cons b blocks ih =>
      by_cases hb : b.id = id
      . simp [modifyFirst, hb]
      . simpa [modifyFirst, hb] using ih
  unfold append modifyBlock
  dsimp only
  rw [this]

theorem Distinct.append (h : f.Distinct) {is : List Instruction} : (f.append id is).Distinct :=
  h.modifyBlock fun _ => rfl

theorem code?_append {is : List Instruction} :
    (f.append id is).code? other =
      if other = id then (f.code? id).map (· ++ is) else f.code? other := by
  unfold append
  rw [code?_modifyBlock (by simp)]
  simp [code?, Function.comp_def]

theorem entry?_append {is : List Instruction} : Function.entry? (f.append id is) = f.entry? :=
  entry?_modifyBlock fun _ => rfl

def prepend (f : Function) (id : BlockId) (i : Instruction) : Function :=
  f.modifyBlock id (·.insert 0 i)

theorem Distinct.prepend (h : f.Distinct) {i : Instruction} : (f.prepend id i).Distinct :=
  h.modifyBlock fun _ => rfl

theorem code?_prepend {i : Instruction} :
    (f.prepend id i).code? other =
      if other = id then (f.code? id).map (i :: ·) else f.code? other := by
  unfold prepend
  rw [code?_modifyBlock (by simp [Block.insert])]
  simp [code?, Function.comp_def, Block.insert]

theorem entry?_prepend {i : Instruction} : Function.entry? (f.prepend id i) = f.entry? :=
  entry?_modifyBlock fun _ => rfl

section Move

variable {anchor : BlockId}

theorem moveNear_ok {offset : Nat} (h : f.moveNear id anchor offset = .ok g) :
    id = anchor ∧ g = f ∨ ∃ b i, f.block? id = some b ∧ id ≠ anchor ∧
      (f.withoutBlock id).findIdx? (·.id = anchor) = some i ∧
      g = { f with blocks := (f.withoutBlock id).insertIdx (i + offset) b } := by
  unfold moveNear relocate at h
  by_cases hne : id = anchor
  . rw [if_pos hne] at h
    cases h
    exact .inl ⟨hne, rfl⟩
  . rw [if_neg hne] at h
    cases hb : f.block? id with
    | none => simp [hb] at h
    | some b =>
      simp only [hb] at h
      cases hi : (f.withoutBlock id).findIdx? (·.id = anchor) with
      | none => simp [hi] at h
      | some i =>
        simp only [hi] at h
        cases h
        exact .inr ⟨b, i, rfl, hne, rfl, rfl⟩

theorem withoutBlock_splits {b : Block} (h : f.block? id = some b) :
    ∃ front back, b.id = id ∧ f.blocks = front ++ b :: back ∧ f.withoutBlock id = front ++ back := by
  obtain ⟨-, front, back, hblocks, hfront⟩ := List.find?_eq_some_iff_append.1 h
  have hid : b.id = id := by
    simpa using List.find?_some h
  refine ⟨front, back, hid, hblocks, ?_⟩
  unfold withoutBlock
  rw [hblocks, List.eraseP_append_right]
  . simp [hid]
  . simpa using hfront

theorem withoutBlock_perm {b : Block} (hb : f.block? id = some b) :
    (b :: f.withoutBlock id).Perm f.blocks := by
  obtain ⟨front, back, -, hblocks, hrest⟩ := withoutBlock_splits hb
  rw [hrest, hblocks]
  exact List.perm_middle.symm

theorem moveNear_perm {offset : Nat} (h : f.moveNear id anchor offset = .ok g) (hle : offset ≤ 1) :
    g.blocks.Perm f.blocks := by
  obtain ⟨-, rfl⟩ | ⟨b, i, hb, -, hi, rfl⟩ := moveNear_ok h
  . exact .refl _
  . have hlt : i < (f.withoutBlock id).length := (List.findIdx?_eq_some_iff_getElem.1 hi).1
    exact (List.perm_insertIdx b _ (by omega)).trans (withoutBlock_perm hb)

theorem moveNear_static {offset : Nat} (h : f.moveNear id anchor offset = .ok g) :
    g = { f with blocks := g.blocks } := by
  obtain ⟨-, rfl⟩ | ⟨b, i, -, -, -, rfl⟩ := moveNear_ok h
  . rfl
  . rfl

theorem moveAfter_perm (h : f.moveAfter id anchor = .ok g) : g.blocks.Perm f.blocks :=
  moveNear_perm h (Nat.le_refl 1)

theorem moveAfter_static (h : f.moveAfter id anchor = .ok g) : g = { f with blocks := g.blocks } :=
  moveNear_static h

theorem Distinct.of_perm (h : f.Distinct) (hp : g.blocks.Perm f.blocks)
    (hnext : g.nextBlock = f.nextBlock) : g.Distinct := by
  constructor
  . exact (hp.map Block.id).nodup_iff.2 h.nodup
  . intro b hb
    rw [hnext]
    exact h.below b (hp.mem_iff.1 hb)

theorem Distinct.moveAfter (hf : f.Distinct) (h : f.moveAfter id anchor = .ok g) : g.Distinct := by
  apply hf.of_perm (moveAfter_perm h)
  rw [moveAfter_static h]

theorem code?_moveAfter (hf : f.Distinct) (h : f.moveAfter id anchor = .ok g) :
    g.code? other = f.code? other :=
  code?_eq_of_perm hf.nodup (moveAfter_perm h)

theorem entry?_moveAfter (h : f.moveAfter id anchor = .ok g) (hentry : f.entry? = some other)
    (hne : id ≠ other) : g.entry? = some other := by
  obtain ⟨-, rfl⟩ | ⟨b, i, -, -, -, rfl⟩ := moveNear_ok h
  . exact hentry
  . unfold entry? withoutBlock at *
    cases hblocks : f.blocks with
    | nil => simp [hblocks] at hentry
    | cons c blocks =>
      have hc : c.id = other := by simpa [hblocks] using hentry
      simp [hc, Ne.symm hne]

end Move

section Remove

theorem Distinct.removeBlock (h : f.Distinct) : (f.removeBlock id).Distinct := by
  constructor
  . exact h.nodup.sublist ((List.eraseP_sublist).map Block.id)
  . intro b hb
    exact h.below b (List.mem_of_mem_eraseP hb)

theorem entry?_removeBlock (h : f.entry? = some other) (hne : id ≠ other) :
    Function.entry? (f.removeBlock id) = some other := by
  unfold entry? removeBlock withoutBlock at *
  cases hblocks : f.blocks with
  | nil => simp [hblocks] at h
  | cons b blocks =>
    have hb : b.id = other := by simpa [hblocks] using h
    simp [hb, Ne.symm hne]

theorem mem_removeBlock (h : f.Distinct) {b : Block} :
    b ∈ (f.removeBlock id).blocks ↔ b ∈ f.blocks ∧ b.id ≠ id := by
  unfold removeBlock withoutBlock
  have hnodup := h.nodup
  generalize f.blocks = blocks at hnodup ⊢
  dsimp only
  induction blocks with
  | nil => simp
  | cons c blocks ih =>
    rw [List.map_cons, List.nodup_cons] at hnodup
    rw [List.eraseP_cons]
    by_cases hc : c.id = id
    . simp only [hc, decide_true, cond_true, List.mem_cons]
      constructor
      . intro hb
        refine ⟨.inr hb, ?_⟩
        rintro hid
        exact hnodup.1 (List.mem_map.2 ⟨b, hb, hid.trans hc.symm⟩)
      . rintro ⟨rfl | hb, hid⟩
        . exact absurd hc hid
        . exact hb
    . simp only [hc, decide_false, cond_false, List.mem_cons, ih hnodup.2]
      constructor
      . rintro (rfl | ⟨hb, hid⟩)
        . exact ⟨.inl rfl, hc⟩
        . exact ⟨.inr hb, hid⟩
      . rintro ⟨rfl | hb, hid⟩
        . exact .inl rfl
        . exact .inr ⟨hb, hid⟩

theorem code?_removeBlock (h : f.Distinct) :
    (f.removeBlock id).code? other = if other = id then none else f.code? other := by
  have hblock : (f.removeBlock id).block? other = if other = id then none else f.block? other := by
    apply Option.ext
    intro b
    rw [h.removeBlock.block?_eq_some_iff, mem_removeBlock h]
    split
    . next hid =>
      subst hid
      simp only [reduceCtorEq, iff_false]
      rintro ⟨⟨-, hne⟩, heq⟩
      exact hne heq
    . next hid =>
      rw [h.block?_eq_some_iff]
      constructor
      . rintro ⟨⟨hb, -⟩, heq⟩
        exact ⟨hb, heq⟩
      . rintro ⟨hb, heq⟩
        exact ⟨⟨hb, by rw [heq]; exact hid⟩, heq⟩
  unfold code?
  rw [hblock]
  split <;> rfl

end Remove

/--
Code in which control passes only at the ends of blocks and only to blocks, and in which results go
to temporaries that are taken.
-/
structure Sound (f : Function) : Prop where
  early : ∀ {id code}, f.code? id = some code → ∀ i ∈ code.dropLast, i.isTerminator = false
  targets : ∀ {id code}, f.code? id = some code →
    ∀ i ∈ code, ∀ target ∈ i.successors, f.code? target ≠ none
  temps : ∀ {id code}, f.code? id = some code →
    ∀ i ∈ code, ∀ temp, i.result? = some temp → temp < f.nextTemp

theorem plain_of_ends_false {code : List Instruction}
    (hearly : ∀ i ∈ code.dropLast, i.isTerminator = false) (hends : ends code = false) :
    ∀ i ∈ code, i.isTerminator = false := by
  rcases List.eq_nil_or_concat code with rfl | ⟨before, last, rfl⟩
  . simp
  . rw [List.concat_eq_append, ends_concat] at hends
    simp only [List.concat_eq_append, List.dropLast_concat] at hearly
    simp only [List.concat_eq_append, List.mem_append, List.mem_singleton]
    rintro i (hi | rfl)
    . exact hearly i hi
    . exact hends

theorem verify_eq_ok_iff_ends (hd : f.Distinct) (hs : f.Sound) :
    f.verify = .ok () ↔ ∀ id code, f.code? id = some code → ends code := by
  rw [verify_eq_ok_iff]
  constructor
  . intro h id code hcode
    obtain ⟨b, hb, -, rfl⟩ := exists_mem_of_code? hcode
    obtain ⟨body, last, hbody, hlast, -⟩ := h b hb
    rw [hbody, ends_concat]
    exact hlast
  . intro h b hb
    have hcode := hd.code?_of_mem hb
    have hends := h b.id b.body hcode
    rcases List.eq_nil_or_concat b.body with hbody | ⟨body, last, hbody⟩
    . simp [hbody] at hends
    . rw [List.concat_eq_append] at hbody
      refine ⟨body, last, hbody, ?_, ?_, ?_⟩
      . rw [hbody, ends_concat] at hends
        exact hends
      . have := hs.early hcode
        rwa [hbody, List.dropLast_concat] at this
      . intro target htarget
        have := hs.targets hcode last (by simp [hbody]) target htarget
        exact fun hnone => this (code?_eq_none_iff.2 hnone)

theorem Sound.addBlock (h : f.Sound) (hd : f.Distinct) {label : String} :
    (f.addBlock label).2.Sound := by
  constructor
  . intro id code hcode
    rw [code?_addBlock hd] at hcode
    split at hcode
    . cases hcode
      simp
    . exact h.early hcode
  . intro id code hcode i hi target htarget
    rw [code?_addBlock hd] at hcode ⊢
    split
    . simp
    . split at hcode
      . cases hcode
        simp at hi
      . exact h.targets hcode i hi target htarget
  . intro id code hcode i hi
    rw [code?_addBlock hd] at hcode
    split at hcode
    . cases hcode
      simp at hi
    . exact h.temps hcode i hi

/--
Instructions that can stand at the end of a block: a terminator only as the last of them, and
results below a number of temporaries.
-/
structure Fits (f : Function) (nextTemp : Temp) (is : List Instruction) : Prop where
  le : f.nextTemp ≤ nextTemp
  early : ∀ i ∈ is.dropLast, i.isTerminator = false
  targets : ∀ i ∈ is, ∀ target ∈ i.successors, f.code? target ≠ none
  temps : ∀ i ∈ is, ∀ temp, i.result? = some temp → temp < nextTemp

def Terminates (f : Function) (i : Instruction) : Prop :=
  i.isTerminator = true ∧ ∀ target ∈ i.successors, f.code? target ≠ none

theorem Terminates.fits {i : Instruction} (h : f.Terminates i) : f.Fits f.nextTemp [i] := by
  refine ⟨Nat.le_refl _, by simp, by simpa using h.2, ?_⟩
  intro j hj temp htemp
  rw [List.mem_singleton.1 hj, Instruction.result?_eq_none h.1] at htemp
  cases htemp

theorem Sound.append (h : f.Sound) {is : List Instruction} {nextTemp : Temp}
    (hfits : f.Fits nextTemp is) (hopen : ∀ code, f.code? id = some code → is ≠ [] → ends code = false) :
    Sound { f.append id is with nextTemp } := by
  have hcode? (other) : code? { f.append id is with nextTemp } other =
      if other = id then (f.code? id).map (· ++ is) else f.code? other := code?_append
  have hpresent {target} (htarget : f.code? target ≠ none) :
      code? { f.append id is with nextTemp } target ≠ none := by
    rw [hcode?]
    split
    . next heq =>
      subst heq
      simpa using htarget
    . exact htarget
  constructor
  . intro other code hcode
    rw [hcode?] at hcode
    split at hcode
    . obtain ⟨old, hold, rfl⟩ := Option.map_eq_some_iff.1 hcode
      by_cases his : is = []
      . simpa [his] using h.early hold
      . rw [List.dropLast_append_of_ne_nil his]
        intro i hi
        rcases List.mem_append.1 hi with hi | hi
        . exact plain_of_ends_false (h.early hold) (hopen old hold his) i hi
        . exact hfits.early i hi
    . exact h.early hcode
  . intro other code hcode i hi target htarget
    apply hpresent
    rw [hcode?] at hcode
    split at hcode
    . obtain ⟨old, hold, rfl⟩ := Option.map_eq_some_iff.1 hcode
      rcases List.mem_append.1 hi with hi | hi
      . exact h.targets hold i hi target htarget
      . exact hfits.targets i hi target htarget
    . exact h.targets hcode i hi target htarget
  . intro other code hcode i hi temp htemp
    rw [hcode?] at hcode
    split at hcode
    . obtain ⟨old, hold, rfl⟩ := Option.map_eq_some_iff.1 hcode
      rcases List.mem_append.1 hi with hi | hi
      . exact Nat.lt_of_lt_of_le (h.temps hold i hi temp htemp) hfits.le
      . exact hfits.temps i hi temp htemp
    . exact Nat.lt_of_lt_of_le (h.temps hcode i hi temp htemp) hfits.le

theorem Sound.prepend (h : f.Sound) {i : Instruction} {nextTemp : Temp}
    (hplain : i.isTerminator = false) (hle : f.nextTemp ≤ nextTemp)
    (htemp : ∀ temp, i.result? = some temp → temp < nextTemp) :
    Sound { f.prepend id i with nextTemp } := by
  have hcode? (other) : code? { f.prepend id i with nextTemp } other =
      if other = id then (f.code? id).map (i :: ·) else f.code? other := code?_prepend
  constructor
  . intro other code hcode
    rw [hcode?] at hcode
    split at hcode
    . obtain ⟨old, hold, rfl⟩ := Option.map_eq_some_iff.1 hcode
      cases old with
      | nil => simp
      | cons j old =>
        simp only [List.dropLast_cons_cons, List.forall_mem_cons]
        exact ⟨hplain, h.early hold⟩
    . exact h.early hcode
  . intro other code hcode j hj target htarget
    have hpresent : f.code? target ≠ none := by
      rw [hcode?] at hcode
      split at hcode
      . obtain ⟨old, hold, rfl⟩ := Option.map_eq_some_iff.1 hcode
        rcases List.mem_cons.1 hj with rfl | hj
        . simp [Instruction.successors_eq_nil hplain] at htarget
        . exact h.targets hold j hj target htarget
      . exact h.targets hcode j hj target htarget
    rw [hcode?]
    split
    . next heq =>
      subst heq
      simpa using hpresent
    . exact hpresent
  . intro other code hcode j hj temp hresult
    rw [hcode?] at hcode
    split at hcode
    . obtain ⟨old, hold, rfl⟩ := Option.map_eq_some_iff.1 hcode
      rcases List.mem_cons.1 hj with rfl | hj
      . exact htemp temp hresult
      . exact Nat.lt_of_lt_of_le (h.temps hold j hj temp hresult) hle
    . exact Nat.lt_of_lt_of_le (h.temps hcode j hj temp hresult) hle

theorem Sound.moveAfter (h : f.Sound) (hd : f.Distinct) {anchor : BlockId}
    (hmove : f.moveAfter id anchor = .ok g) : g.Sound := by
  have hcode? (other) : g.code? other = f.code? other := code?_moveAfter hd hmove
  constructor
  . intro other code hcode
    rw [hcode?] at hcode
    exact h.early hcode
  . intro other code hcode i hi target htarget
    rw [hcode?] at hcode ⊢
    exact h.targets hcode i hi target htarget
  . intro other code hcode
    rw [hcode?] at hcode
    rw [moveAfter_static hmove]
    exact h.temps hcode

theorem isReferenced_eq_false (h : f.isReferenced id = false)
    {code : List Instruction} (hcode : f.code? other = some code) {i : Instruction} (hi : i ∈ code) :
    id ∉ i.successors := by
  obtain ⟨b, hb, -, rfl⟩ := exists_mem_of_code? hcode
  simp only [isReferenced, List.any_eq_false] at h
  have := h b hb
  simp only [List.any_eq_true, List.contains_iff_mem, not_exists, not_and] at this
  exact this i hi

theorem Sound.removeBlock (h : f.Sound) (hd : f.Distinct) (hfree : f.isReferenced id = false) :
    (f.removeBlock id).Sound := by
  have hcode {other code} (hcode : (f.removeBlock id).code? other = some code) :
      f.code? other = some code := by
    rw [code?_removeBlock hd] at hcode
    split at hcode
    . cases hcode
    . exact hcode
  constructor
  . intro other code hother
    exact h.early (hcode hother)
  . intro other code hother i hi target htarget
    rw [code?_removeBlock hd]
    split
    . next heq =>
      subst heq
      exact absurd htarget (isReferenced_eq_false hfree (hcode hother) hi)
    . exact h.targets (hcode hother) i hi target htarget
  . intro other code hother
    exact h.temps (hcode hother)

end Function

end ScriptedIR
