import ScriptedIR.Proofs.Casting

/-!
Pointers with a path. A pointer into memory is rooted if its path has an entry, so that there is a last
one to be moved and a first one to be followed. All that is computed from rooted data is rooted, and so
is what a memory of rooted data gives back; no path is ever found to be empty on the way.
-/

namespace ScriptedIR

def RunError.isOfRange : RunError → Bool
  | invalidPointer (.emptyPath _) | typeError (.tempRange _) => true
  | breakdown .noEntry | breakdown (.slots _) => true
  | _ => false

/--
What holds of the result of a computation. If there is none, that is for another reason than a missing
entry.
-/
def InRange (x : Except RunError α) (P : α → Prop) : Prop :=
  match x with
  | .ok a => P a
  | .error e => e.isOfRange = false

namespace InRange

variable {P : α → Prop} {Q : β → Prop}

theorem bind {x : Except RunError α} {f : α → Except RunError β} (hx : InRange x P)
    (hf : ∀ a, P a → InRange (f a) Q) : InRange (x >>= f) Q := by
  cases x with
  | error e => exact hx
  | ok a => exact hf a hx

theorem mapM {f : α → Except RunError β} {as : List α} (h : ∀ a ∈ as, InRange (f a) Q) :
    InRange (as.mapM f) fun bs => ∀ b ∈ bs, Q b := by
  induction as with
  | nil =>
    rw [List.mapM_nil]
    exact fun b hb => absurd hb List.not_mem_nil
  | cons a as ih =>
    rw [List.forall_mem_cons] at h
    rw [List.mapM_cons]
    exact h.1.bind fun b hb => (ih h.2).bind fun bs hbs => List.forall_mem_cons.2 ⟨hb, hbs⟩

theorem foldlM {f : β → α → Except RunError β} (h : ∀ b a, Q b → InRange (f b a) Q) (as : List α)
    {b : β} (hb : Q b) : InRange (as.foldlM f b) Q := by
  induction as generalizing b with
  | nil => exact hb
  | cons a as ih =>
    rw [List.foldlM_cons]
    exact (h b a hb).bind fun c hc => ih hc

end InRange

namespace Pointer

def Rooted : Pointer → Prop
  | null => True
  | memory _ path => path ≠ []

theorem shiftLast_ne_nil {amount : Int} {path : List Int} (h : path ≠ []) :
    shiftLast amount path ≠ [] := by
  fun_cases shiftLast amount path <;> simp_all

theorem Rooted.offset {p : Pointer} (h : p.Rooted) (amount : Int) : (p.offset amount).Rooted := by
  cases p with
  | null => trivial
  | memory alloc path => exact shiftLast_ne_nil h

theorem Rooted.child {p : Pointer} (h : p.Rooted) (index : Int) : (p.child index).Rooted := by
  cases p with
  | null => trivial
  | memory alloc path => exact List.append_ne_nil_of_right_ne_nil path (List.cons_ne_nil _ _)

theorem Rooted.inside {p : Pointer} (h : p.Rooted) (path : List Nat) : (p.inside path).Rooted := by
  cases p with
  | null => trivial
  | memory alloc start => exact List.append_ne_nil_of_left_ne_nil h _

end Pointer

namespace Datum

mutual

def pointers : Datum → List Pointer
  | .pointer p => [p]
  | .aggregate ds => pointersAll ds
  | _ => []

def pointersAll : List Datum → List Pointer
  | [] => []
  | d :: ds => pointers d ++ pointersAll ds

end

def Rooted (d : Datum) : Prop := ∀ p ∈ d.pointers, p.Rooted

variable {p : Pointer} {d : Datum} {ds : List Datum}

theorem mem_pointersAll : p ∈ pointersAll ds ↔ ∃ d ∈ ds, p ∈ d.pointers := by
  induction ds with
  | nil => simp [pointersAll]
  | cons d ds ih => simp [pointersAll, ih]

theorem rooted_pointer : Rooted (.pointer p) ↔ p.Rooted := by
  simp [Rooted, pointers]

theorem rooted_aggregate : Rooted (.aggregate ds) ↔ ∀ d ∈ ds, d.Rooted := by
  simp only [Rooted, pointers, mem_pointersAll]
  constructor
  . intro h d hd p hp
    exact h p ⟨d, hd, hp⟩
  . rintro h p ⟨d, hd, hp⟩
    exact h d hd p hp

theorem rooted_of_no_pointers (h : d.pointers = []) : d.Rooted := by
  simp [Rooted, h]

mutual

theorem rooted_zero : (t : Ty) → (zero t).Rooted
  | .int _ | .float _ | .void | .function .. | .label => rooted_of_no_pointers rfl
  | .pointer _ => rooted_pointer.2 trivial
  | .array n t => by
    rw [zero, rooted_aggregate]
    intro d hd
    rw [List.eq_of_mem_replicate hd]
    exact rooted_zero t
  | .vector n t => by
    rw [zero, rooted_aggregate]
    intro d hd
    rw [List.eq_of_mem_replicate hd]
    exact rooted_zero t
  | .struct _ fields _ => by
    rw [zero, rooted_aggregate]
    exact rooted_zeros fields

theorem rooted_zeros : (ts : List Ty) → ∀ d ∈ zeros ts, d.Rooted
  | [] => by simp [zeros]
  | t :: ts => by
    rw [zeros, List.forall_mem_cons]
    exact ⟨rooted_zero t, rooted_zeros ts⟩

end

theorem rooted_set {row : List Datum} (hrow : ∀ d ∈ row, d.Rooted) (hd : d.Rooted) (i : Nat) :
    ∀ e ∈ row.set i d, e.Rooted := by
  intro e he
  rcases List.mem_or_eq_of_mem_set he with he | rfl
  . exact hrow e he
  . exact hd

theorem toInt_inRange (d : Datum) : InRange d.toInt fun _ => True := by
  cases d with
  | int v => trivial
  | _ => rfl

theorem toFloat_inRange (d : Datum) : InRange d.toFloat fun _ => True := by
  cases d with
  | float x => trivial
  | _ => rfl

theorem toPointer_inRange (h : d.Rooted) : InRange d.toPointer Pointer.Rooted := by
  cases d with
  | pointer p => exact rooted_pointer.1 h
  | _ => rfl

theorem toAggregate_inRange (h : d.Rooted) : InRange d.toAggregate fun ds => ∀ d ∈ ds, d.Rooted := by
  cases d with
  | aggregate ds => exact rooted_aggregate.1 h
  | _ => rfl

end Datum

open Datum

section Arithmetic

variable {d e : Datum}

theorem intBinary_inRange (function : String) (op : BinaryOp) (width : Nat) (a b : Int64) :
    InRange (intBinary function op width a b) fun _ => True := by
  cases op with
  | sdiv | srem | udiv | urem =>
    unfold intBinary
    dsimp only
    split
    . rfl
    . trivial
  | fadd | fsub | fmul | fdiv | frem => rfl
  | _ => trivial

theorem floatBinary_inRange (op : BinaryOp) (x y : Float) :
    InRange (floatBinary op x y) fun _ => True := by
  cases op with
  | fadd | fsub | fmul | fdiv | frem => trivial
  | _ => rfl

theorem binary_inRange (function : String) (op : BinaryOp) (ty : Ty) (a b : Datum) (ha : a.Rooted)
    (hb : b.Rooted) : InRange (binary function op ty a b) Rooted := by
  fun_induction binary function op ty a b with
  | case1 n element a b ih =>
    refine (toAggregate_inRange ha).bind fun as has => ?_
    refine (toAggregate_inRange hb).bind fun bs hbs => ?_
    refine (InRange.mapM ?_).bind fun lanes hlanes => rooted_aggregate.2 hlanes
    rintro ⟨x, y⟩ hxy
    have hmem := List.of_mem_zip hxy
    exact ih x y (has x hmem.1) (hbs y hmem.2)
  | case2 ty a b _ _ =>
    refine (toFloat_inRange a).bind fun x _ => (toFloat_inRange b).bind fun y _ => ?_
    exact (floatBinary_inRange op x y).bind fun _ _ => rooted_of_no_pointers rfl
  | case3 ty a b _ _ =>
    refine (toInt_inRange a).bind fun x _ => (toInt_inRange b).bind fun y _ => ?_
    exact (intBinary_inRange function op _ x y).bind fun _ _ => rooted_of_no_pointers rfl

theorem compareData_inRange (p : IntPredicate) (ty : Ty) (a b : Datum) :
    InRange (compareData p ty a b) fun _ => True := by
  unfold compareData
  split
  . trivial
  . exact (toInt_inRange _).bind fun _ _ => (toInt_inRange _).bind fun _ _ => trivial

theorem rooted_descend (target source : Ty) {p : Pointer} (h : p.Rooted) :
    (descend target source p).Rooted := by
  rw [descend_eq]
  exact h.inside _

theorem bitCast_inRange (source target : Ty) (hd : d.Rooted) :
    InRange (bitCast d source target) Rooted := by
  unfold bitCast
  split
  . exact hd
  . split
    . exact rooted_pointer.2 (rooted_descend _ _ (rooted_pointer.1 hd))
    . exact (toInt_inRange _).bind fun _ _ => rooted_of_no_pointers rfl
    . exact (toFloat_inRange _).bind fun _ _ => rooted_of_no_pointers rfl
    . exact (toInt_inRange _).bind fun _ _ => rooted_of_no_pointers rfl
    . exact (toFloat_inRange _).bind fun _ _ => rooted_of_no_pointers rfl
    . exact hd

theorem checked_inRange (verb : String) (v : Int) : InRange (Word.checked verb v) fun _ => True := by
  unfold Word.checked
  split
  . trivial
  . rfl

theorem move_inRange {p : Pointer} (hp : p.Rooted) (amount : Int64) :
    InRange (p.move amount) Pointer.Rooted := by
  unfold Pointer.move
  split
  . exact hp
  . exact (checked_inRange "add" _).bind fun _ _ => hp.offset amount.toInt

theorem encodePointer_inRange (p : Pointer) : InRange (encodePointer p) fun _ => True := by
  unfold encodePointer
  split
  . trivial
  . exact (checked_inRange "add" _).bind fun _ _ => checked_inRange "add" _
  . rfl

theorem rooted_decodePointer (v : Int64) : (decodePointer v).Rooted := by
  unfold decodePointer
  split
  . trivial
  . exact List.cons_ne_nil _ _

theorem castDatum_inRange (op : CastOp) (source target : Ty) (hd : d.Rooted) :
    InRange (castDatum op d source target) Rooted := by
  have onInt {f : Int64 → Datum} (hf : ∀ v, (f v).Rooted) :
      InRange (d.toInt >>= fun v => Pure.pure (f v)) Rooted :=
    (toInt_inRange d).bind fun v _ => hf v
  have onFloat {f : Float → Datum} (hf : ∀ x, (f x).Rooted) :
      InRange (d.toFloat >>= fun x => Pure.pure (f x)) Rooted :=
    (toFloat_inRange d).bind fun x _ => hf x
  cases op with
  | trunc | zext | sext | sitofp | uitofp => exact onInt fun _ => rooted_of_no_pointers rfl
  | fptrunc | fpext | fptosi | fptoui => exact onFloat fun _ => rooted_of_no_pointers rfl
  | ptrtoint =>
    refine (toPointer_inRange hd).bind fun p _ => ?_
    exact (encodePointer_inRange p).bind fun _ _ => rooted_of_no_pointers rfl
  | inttoptr => exact onInt fun v => rooted_pointer.2 (rooted_decodePointer v)
  | bitcast => exact bitCast_inRange source target hd

theorem pointerDistance_inRange {p q : Pointer} (hp : p.Rooted) (hq : q.Rooted) :
    InRange (pointerDistance p q) fun _ => True := by
  unfold pointerDistance
  split
  . trivial
  . next a path b path' =>
    split
    . split
      . split
        . apply checked_inRange
        . rfl
      . next hlast =>
        -- both have a last entry
        have hi : path.getLast? = some (path.getLast hp) := List.getLast?_eq_some_getLast hp
        have hj : path'.getLast? = some (path'.getLast hq) := List.getLast?_eq_some_getLast hq
        exact absurd hj (hlast _ _ hi)
    . rfl
  . rfl

end Arithmetic

section Members

variable {d e : Datum}

theorem extractMember_inRange (path : List Nat) (hd : d.Rooted) :
    InRange (extractMember d path) Rooted := by
  induction path generalizing d with
  | nil => exact hd
  | cons i rest ih =>
    refine (toAggregate_inRange hd).bind fun ds hds => ?_
    split
    . next member hmember => exact ih (hds member (List.mem_of_getElem? hmember))
    . rfl

theorem insertMember_inRange (path : List Nat) (hd : d.Rooted) (he : e.Rooted) :
    InRange (insertMember e d path) Rooted := by
  fun_induction insertMember e d path with
  | case1 => exact he
  | case2 members i rest member hmember ih =>
    rw [rooted_aggregate] at hd
    refine (ih (hd member (List.mem_of_getElem? hmember))).bind fun inner hinner => ?_
    exact rooted_aggregate.2 (rooted_set hd hinner i)
  | case3 => rfl
  | case4 => rfl

theorem extractLane_inRange (i : Int64) (hd : d.Rooted) : InRange (extractLane d i) Rooted := by
  refine (toAggregate_inRange hd).bind fun lanes hlanes => ?_
  split
  . next lane hlane =>
    split at hlane
    . exact hlanes lane (List.mem_of_getElem? hlane)
    . cases hlane
  . rfl

theorem insertLane_inRange (i : Int64) (hd : d.Rooted) (he : e.Rooted) :
    InRange (insertLane d e i) Rooted := by
  unfold insertLane
  split
  . split
    . exact rooted_aggregate.2 (rooted_set (rooted_aggregate.1 hd) he _)
    . rfl
  . rfl

theorem shuffleLanes_inRange (mask : List Nat) (hd : d.Rooted) (he : e.Rooted) :
    InRange (shuffleLanes d e mask) Rooted := by
  refine (toAggregate_inRange hd).bind fun ds hds => ?_
  refine (toAggregate_inRange he).bind fun es hes => ?_
  refine (InRange.mapM ?_).bind fun lanes hlanes => rooted_aggregate.2 hlanes
  intro i _
  split
  . next lane hlane =>
    rcases List.mem_append.1 (List.mem_of_getElem? hlane) with hmem | hmem
    . exact hds lane hmem
    . exact hes lane hmem
  . rfl

end Members

section Paths

variable {row row' : List Datum} {path : List Int} {d : Datum}

theorem rooted_follow (hrow : ∀ d ∈ row, d.Rooted) (h : follow row path = .ok d) : d.Rooted := by
  fun_induction follow row path with
  | case1 => cases h
  | case2 => cases h
  | case3 row i _ hi =>
    cases h
    exact hrow _ (mem_of_member? hi)
  | case4 => cases h
  | case5 row i j rest members hi ih =>
    exact ih (rooted_aggregate.1 (hrow _ (mem_of_member? hi))) h
  | case6 => cases h

theorem follow_ne_empty (hpath : path ≠ []) : follow row path ≠ .error .empty := by
  fun_induction follow row path with
  | case1 => exact absurd rfl hpath
  | case5 _ _ _ _ _ _ ih => exact ih (List.cons_ne_nil _ _)
  | case2 | case3 | case4 | case6 =>
    intro h
    cases h

theorem rooted_replace (hrow : ∀ d ∈ row, d.Rooted) (hd : d.Rooted)
    (h : replace row d path = .ok row') : ∀ e ∈ row', e.Rooted := by
  fun_induction replace row d path generalizing row' with
  | case1 => cases h
  | case2 => cases h
  | case3 =>
    cases h
    exact rooted_set hrow hd _
  | case4 => cases h
  | case5 row i j rest members hi members' hmembers ih =>
    cases h
    have hinner := ih (rooted_aggregate.1 (hrow _ (mem_of_member? hi))) hmembers
    exact rooted_set hrow (rooted_aggregate.2 hinner) _
  | case6 => cases h
  | case7 => cases h

theorem replace_ne_empty (hpath : path ≠ []) : replace row d path ≠ .error .empty := by
  fun_induction replace row d path with
  | case1 => exact absurd rfl hpath
  | case6 _ _ _ _ _ _ _ hinner ih =>
    intro h
    cases h
    exact ih (List.cons_ne_nil _ _) hinner
  | case2 | case3 | case4 | case5 | case7 =>
    intro h
    cases h

end Paths

namespace Memory

def Rooted (m : Memory) : Prop :=
  ∀ (alloc : Nat) (cells : List Datum), m.allocations[alloc]? = some (some cells) →
    ∀ d ∈ cells, d.Rooted

variable {m : Memory} {p : Pointer} {d : Datum}

theorem Rooted.setIfInBounds (hm : m.Rooted) (alloc : Nat) {cells : Option (List Datum)}
    (hcells : ∀ row, cells = some row → ∀ d ∈ row, d.Rooted) :
    Rooted ⟨m.allocations.setIfInBounds alloc cells⟩ := by
  intro other row hrow
  rw [Array.getElem?_setIfInBounds] at hrow
  split at hrow
  . split at hrow
    . exact hcells row (Option.some.inj hrow)
    . cases hrow
  . exact hm other row hrow

theorem Rooted.allocate (hm : m.Rooted) (ty : Ty) (count : Nat) :
    (m.allocate ty count).1.Rooted ∧ (m.allocate ty count).2.Rooted := by
  refine ⟨List.cons_ne_nil _ _, ?_⟩
  intro alloc cells hcells
  rw [Memory.allocate, Array.getElem?_push] at hcells
  split at hcells
  . cases hcells
    intro d hd
    rw [List.eq_of_mem_replicate hd]
    exact rooted_zero ty
  . exact hm alloc cells hcells

theorem Rooted.row (hm : m.Rooted) (p : Pointer) :
    InRange (m.row p) fun cells => ∀ d ∈ cells, d.Rooted := by
  unfold Memory.row
  split
  . rfl
  . split
    . next cells hcells => exact hm _ cells hcells
    . rfl

theorem Rooted.free (hm : m.Rooted) (p : Pointer) : InRange (kept (m.free p)) Rooted := by
  unfold Memory.free
  split
  . exact hm
  . split
    . rfl
    . dsimp only
      split
      . rfl
      . exact hm.setIfInBounds _ fun _ h => by cases h

theorem isOfRange_at {fault : PathFault} (h : fault ≠ .empty) (p : Pointer) :
    (RunError.invalidPointer (fault.at p)).isOfRange = false := by
  cases fault with
  | empty => exact absurd rfl h
  | outOfBounds | intoScalar => rfl

theorem path_ne_nil {cells : List Datum} (hp : p.Rooted) (h : m.row p = .ok cells) :
    p.path ≠ [] := by
  cases p with
  | null => cases h
  | memory alloc path => exact hp

theorem Rooted.load (hm : m.Rooted) (hp : p.Rooted) : InRange (m.load p) Datum.Rooted := by
  have hrow := hm.row p
  unfold Memory.load
  split
  . next e he =>
    rw [he] at hrow
    exact hrow
  . next cells hcells =>
    rw [hcells] at hrow
    split
    . next d hd => exact rooted_follow hrow hd
    . next fault hfault =>
      refine isOfRange_at ?_ p
      rintro rfl
      exact follow_ne_empty (path_ne_nil hp hcells) hfault

theorem Rooted.store (hm : m.Rooted) (hp : p.Rooted) (hd : d.Rooted) :
    InRange (kept (m.store p d)) Rooted := by
  have hrow := hm.row p
  unfold Memory.store
  split
  . next e he =>
    rw [he] at hrow
    exact hrow
  . next cells hcells =>
    rw [hcells] at hrow
    split
    . next cells' hreplace =>
      refine hm.setIfInBounds _ ?_
      rintro row ⟨⟩
      exact rooted_replace hrow hd hreplace
    . next fault hfault =>
      refine isOfRange_at ?_ p
      rintro rfl
      exact replace_ne_empty (path_ne_nil hp hcells) hfault

theorem Rooted.readBytes (hm : m.Rooted) (hp : p.Rooted) :
    InRange (m.readBytes p) fun _ => True := by
  fun_induction Memory.readBytes m p with
  | case1 p e h =>
    have hload := hm.load hp
    rw [h] at hload
    exact hload
  | case2 => trivial
  | case3 => trivial
  | case4 p v h hv e hrest ih =>
    have hbytes := ih (hp.offset 1)
    rw [hrest] at hbytes
    exact hbytes
  | case5 => rfl

theorem Rooted.readText (hm : m.Rooted) (hp : p.Rooted) : InRange (m.readText p) fun _ => True :=
  (hm.readBytes hp).bind fun _ _ => trivial

end Memory

namespace Host

def KeepsRooted (f : HostFunction) : Prop :=
  ∀ store args, store.memory.Rooted → (∀ d ∈ args, d.Rooted) →
    InRange (f store args).1 Rooted ∧ (f store args).2.memory.Rooted

variable {m : Memory} {args : List Datum}

theorem render_inRange (hm : m.Rooted) (c : Conversion) {d : Datum} (hd : d.Rooted) :
    InRange (c.render m d) fun _ => True := by
  unfold Conversion.render
  split
  . trivial
  . trivial
  . trivial
  . trivial
  . trivial
  . exact hm.readText (rooted_pointer.1 hd)
  . rfl

mutual

theorem formatText_inRange (hm : m.Rooted) (format : List Char) (args : List Datum)
    (hargs : ∀ d ∈ args, d.Rooted) : InRange (formatText m format args) fun _ => True := by
  cases format with
  | nil => trivial
  | cons c cs =>
    rw [formatText]
    split
    . exact formatConversion_inRange hm cs args hargs
    . exact (formatText_inRange hm cs args hargs).bind fun _ _ => trivial

theorem formatConversion_inRange (hm : m.Rooted) (format : List Char) (args : List Datum)
    (hargs : ∀ d ∈ args, d.Rooted) : InRange (formatConversion m format args) fun _ => True := by
  cases format with
  | nil => trivial
  | cons c cs =>
    rw [formatConversion]
    split
    . exact formatConversion_inRange hm cs args hargs
    . split
      . exact (formatText_inRange hm cs args hargs).bind fun _ _ => trivial
      . split
        . exact (formatText_inRange hm cs args hargs).bind fun _ _ => trivial
        . cases args with
          | nil => rfl
          | cons arg args =>
            rw [List.forall_mem_cons] at hargs
            refine (render_inRange hm _ hargs.1).bind fun _ _ => ?_
            exact (formatText_inRange hm cs args hargs.2).bind fun _ _ => trivial

end

end Host

end ScriptedIR
