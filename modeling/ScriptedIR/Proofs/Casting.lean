import ScriptedIR.Proofs.Members

/-!
Casts between pointers. A cast follows leading members down to the type that is asked for, or to the
innermost one if there is none of that type, and nothing leads up again. So a cast and the cast back
give the same pointer only where neither of them had anywhere to go.
-/

namespace ScriptedIR

namespace Ty

def leading : Ty → List Ty
  | struct _ (first :: _) _ => first :: leading first
  | array _ element => element :: leading element
  | vector _ element => element :: leading element
  | _ => []

def descent (source target : Ty) : Nat :=
  min ((source :: source.leading).findIdx (· = target)) source.leading.length

theorem descent_self (t : Ty) : t.descent t = 0 := by
  simp [descent, List.findIdx_cons]

theorem descent_of_leading_nil {source : Ty} (h : source.leading = []) (target : Ty) :
    source.descent target = 0 := by
  simp [descent, h]

theorem descent_of_leading_cons {source target first : Ty}
    (h : source.leading = first :: first.leading) (hne : source ≠ target) :
    source.descent target = first.descent target + 1 := by
  unfold descent
  rw [h, List.findIdx_cons, List.length_cons, decide_eq_false hne]
  dsimp only [cond_false]
  omega

theorem descent_eq_zero_iff {source target : Ty} :
    source.descent target = 0 ↔ source = target ∨ source.leading = [] := by
  constructor
  . intro h
    by_cases heq : source = target
    . exact .inl heq
    . right
      simpa [descent, List.findIdx_cons, heq] using h
  . rintro (rfl | hnil)
    . exact descent_self source
    . exact descent_of_leading_nil hnil target

end Ty

theorem Pointer.child_inside (p : Pointer) (n : Nat) :
    (p.child 0).inside (List.replicate n 0) = p.inside (List.replicate (n + 1) 0) :=
  p.inside_child 0 _

theorem descend_eq (target source : Ty) (p : Pointer) :
    descend target source p = p.inside (List.replicate (source.descent target) 0) := by
  fun_induction descend target source p with
  | case1 _ _ _ _ _ heq | case3 _ _ _ heq | case5 _ _ _ heq =>
    rw [heq, Ty.descent_self, List.replicate_zero, Pointer.inside_nil]
  | case2 p name first rest packed hne ih | case4 p n first hne ih | case6 p n first hne ih =>
    rw [ih, Pointer.child_inside, Ty.descent_of_leading_cons (by rfl) hne]
  | case7 source p hstruct harray hvector =>
    have hnil : source.leading = [] := by
      unfold Ty.leading
      split
      . exact absurd rfl (hstruct _ _ _ _)
      . exact absurd rfl (harray _ _)
      . exact absurd rfl (hvector _ _)
      . rfl
    rw [Ty.descent_of_leading_nil hnil, List.replicate_zero, Pointer.inside_nil]

theorem bitCast_pointer (source target : Ty) (p : Pointer) :
    bitCast (.pointer p) (.pointer source) (.pointer target) =
      .ok (.pointer (p.inside (List.replicate (source.descent target) 0))) := by
  unfold bitCast
  split
  . next heq =>
    cases heq
    rw [Ty.descent_self, List.replicate_zero, Pointer.inside_nil]
  . dsimp only
    rw [descend_eq]

theorem bitCast_of_not_pointer {d : Datum} (hd : ∀ p, d ≠ .pointer p) (source target : Ty) :
    bitCast d (.pointer source) (.pointer target) = .ok d := by
  unfold bitCast
  split
  . rfl
  . cases d with
    | pointer p => exact absurd rfl (hd p)
    | _ => rfl

theorem Ty.descents_eq_zero_iff {source target : Ty} :
    source.descent target + target.descent source = 0 ↔
      source = target ∨ source.leading = [] ∧ target.leading = [] := by
  rw [Nat.add_eq_zero_iff, descent_eq_zero_iff, descent_eq_zero_iff, eq_comm (a := target)]
  exact or_and_left.symm

theorem Pointer.inside_append (p : Pointer) (path rest : List Nat) :
    (p.inside path).inside rest = p.inside (path ++ rest) := by
  cases p <;> simp [inside]

theorem Pointer.inside_eq_self_iff {p : Pointer} {rest : List Nat} :
    p.inside rest = p ↔ p = .null ∨ rest = [] := by
  cases p <;> simp [inside]

theorem mem_of_member? {row : List α} {i : Int} {a : α} (h : member? row i = some a) : a ∈ row := by
  unfold member? at h
  split at h
  . exact List.mem_of_getElem? h
  . cases h

theorem Datum.sizeOf_of_get? {d e : Datum} {path : List Int} (h : d.get? path = some e) :
    sizeOf e + path.length ≤ sizeOf d := by
  induction path generalizing d with
  | nil =>
    cases h
    exact Nat.le_refl _
  | cons i path ih =>
    cases d with
    | aggregate members =>
      obtain ⟨member, hmember, hrest⟩ := Option.bind_eq_some_iff.1 h
      have hlt := List.sizeOf_lt_of_mem (mem_of_member? hmember)
      have hle := ih hrest
      rw [List.length_cons, Datum.aggregate.sizeOf_spec]
      omega
    | _ => cases h

namespace Memory

variable {m : Memory} {alloc : Nat} {path : List Int}

theorem load_error {e : RunError} (h : m.load (.memory alloc path) = .error e) :
    e = .invalidPointer (.freed (.memory alloc path)) ∨
      ∃ fault : PathFault, e = .invalidPointer (fault.at (.memory alloc path)) := by
  simp only [load, row] at h
  rcases hcells : m.allocations[alloc]? with _ | _ | cells <;> simp only [hcells] at h
  . cases h
    exact .inl rfl
  . cases h
    exact .inl rfl
  . split at h
    . cases h
    . next fault _ =>
      cases h
      exact .inr ⟨fault, rfl⟩

theorem load_error_inj {alloc' : Nat} {path' : List Int} {e : RunError}
    (h : m.load (.memory alloc path) = .error e) (h' : m.load (.memory alloc' path') = .error e) :
    path = path' := by
  rcases load_error h with rfl | ⟨fault, rfl⟩ <;> rcases load_error h' with h' | ⟨fault', h'⟩
  . cases h'
    rfl
  . cases fault' <;> cases h'
  . cases fault <;> cases h'
  . cases fault <;> cases fault' <;> cases h' <;> rfl

theorem load_inside_ne {rest : List Nat} (hrest : rest ≠ []) :
    m.load (Pointer.inside (.memory alloc path) rest) ≠ m.load (.memory alloc path) := by
  intro heq
  cases hload : m.load (.memory alloc path) with
  | error e =>
    -- errors tell the pointer, and these are two
    have hpath := load_error_inj hload (heq.trans hload)
    simp [hrest] at hpath
  | ok d =>
    -- a part of a datum is smaller than the datum
    have hp : ∀ a, Pointer.memory alloc path ≠ .memory a [] := by
      rintro a ⟨⟩
      obtain ⟨_, _, hfollow⟩ := load_eq_ok_iff.1 hload
      cases hfollow
    obtain ⟨whole, hwhole, hpart⟩ := (load_inside hp).1 (heq.trans hload)
    cases hload.symm.trans hwhole
    have hsize := Datum.sizeOf_of_get? (extractMember_eq_ok_iff.1 hpart)
    rw [List.length_map] at hsize
    apply hrest
    apply List.eq_nil_of_length_eq_zero
    omega

theorem load_inside_eq_iff {p : Pointer} {rest : List Nat} :
    m.load (p.inside rest) = m.load p ↔ p.inside rest = p := by
  constructor
  . intro h
    cases p with
    | null => rfl
    | memory alloc path =>
      by_cases hrest : rest = []
      . rw [hrest, Pointer.inside_nil]
      . exact absurd h (load_inside_ne hrest)
  . intro h
    rw [h]

end Memory

/--
A cast from one pointer type to another and the cast back, on any datum that can stand for a pointer. The
pointer comes back, and so does what is loaded through it, exactly if neither type has a leading
member, or the types are the same, or it is no pointer into memory. Otherwise it comes back as a pointer
to a leading member, as far inside as both casts went.
-/
theorem bitCast_back_iff (source target : Ty) (d : Datum) :
    ∃ there back, bitCast d (.pointer source) (.pointer target) = .ok there ∧
      bitCast there (.pointer target) (.pointer source) = .ok back ∧
      (back = d ↔ (∀ alloc path, d ≠ .pointer (.memory alloc path)) ∨ source = target ∨
        source.leading = [] ∧ target.leading = []) ∧
      ∀ p, d = .pointer p → ∃ q, back = .pointer q ∧
        q = p.inside (List.replicate (source.descent target + target.descent source) 0) ∧
        ∀ m : Memory, m.load q = m.load p ↔ q = p := by
  by_cases hd : ∃ p, d = .pointer p
  . obtain ⟨p, rfl⟩ := hd
    refine ⟨_, _, bitCast_pointer source target p, bitCast_pointer target source _, ?_, ?_⟩
    . rw [Pointer.inside_append, List.replicate_append_replicate, Datum.pointer.injEq,
        Pointer.inside_eq_self_iff, List.replicate_eq_nil_iff, Ty.descents_eq_zero_iff]
      apply or_congr_left
      cases p <;> simp
    . rintro _ ⟨⟩
      rw [Pointer.inside_append, List.replicate_append_replicate]
      exact ⟨_, rfl, rfl, fun m => Memory.load_inside_eq_iff⟩
  . rw [not_exists] at hd
    refine ⟨d, d, bitCast_of_not_pointer hd source target, bitCast_of_not_pointer hd target source,
      ?_, fun p hp => absurd hp (hd p)⟩
    exact iff_of_true rfl (.inl fun alloc path => hd (.memory alloc path))

def boxed : Ty :=
  .struct none [.i32] false

/--
A pointer to a word comes back from bytes. A pointer to an array of structs does not come back from its
leading struct: one cast went into the array and the other into the struct.
-/
theorem word_back_boxes_inside :
    (∃ there, bitCast (.pointer (.memory 0 [0])) (.pointer .i32) (.pointer .i8) = .ok there ∧
      bitCast there (.pointer .i8) (.pointer .i32) = .ok (.pointer (.memory 0 [0]))) ∧
    ∃ there, bitCast (.pointer (.memory 0 [0])) (.pointer (.array 2 boxed)) (.pointer boxed) =
        .ok there ∧
      bitCast there (.pointer boxed) (.pointer (.array 2 boxed)) =
        .ok (.pointer (.memory 0 [0, 0, 0])) ∧
      ∀ m : Memory, m.load (.memory 0 [0, 0, 0]) ≠ m.load (.memory 0 [0]) := by
  constructor
  . obtain ⟨there, back, hthere, hback, hiff, -⟩ :=
      bitCast_back_iff .i32 .i8 (.pointer (.memory 0 [0]))
    cases hiff.2 (.inr (.inr ⟨rfl, rfl⟩))
    exact ⟨there, hthere, hback⟩
  . obtain ⟨there, back, hthere, hback, -, hpointer⟩ :=
      bitCast_back_iff (.array 2 boxed) boxed (.pointer (.memory 0 [0]))
    obtain ⟨q, rfl, rfl, hload⟩ := hpointer _ rfl
    exact ⟨there, hthere, hback, fun m heq => absurd ((hload m).1 heq) (by decide)⟩

/--
A pointer to a struct that was cast to bytes and back leads to the word in it.
-/
theorem boxed_not_back :
    ∃ m p there, Memory.allocate {} boxed 1 = (p, m) ∧
      bitCast (.pointer p) (.pointer boxed) (.pointer .i8) = .ok there ∧
      bitCast there (.pointer .i8) (.pointer boxed) = .ok (.pointer (.memory 0 [0, 0])) ∧
      p ≠ .memory 0 [0, 0] ∧
      m.load p = .ok (.aggregate [.int 0]) ∧ m.load (.memory 0 [0, 0]) = .ok (.int 0) :=
  ⟨_, _, _, rfl, rfl, rfl, by decide, rfl, rfl⟩

end ScriptedIR
