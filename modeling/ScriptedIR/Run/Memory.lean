import ScriptedIR.Run.Error
import ScriptedIR.Text.Utf8

/-!
Memory: a list of allocations, each a row of cells, that only grows; a freed allocation keeps its
number. Reading and writing follow the path of a pointer through nested aggregates.
-/

namespace ScriptedIR

inductive PathFault where
  | empty
  | outOfBounds
  | intoScalar
deriving DecidableEq, Repr

def PathFault.at (p : Pointer) : PathFault → PointerFault
  | empty => .emptyPath p
  | outOfBounds => .outOfBounds p
  | intoScalar => .intoScalar p

def member? (row : List α) (i : Int) : Option α :=
  if 0 ≤ i then row[i.toNat]? else none

theorem lt_length_of_member? {row : List α} {i : Int} {a : α} (h : member? row i = some a) :
    0 ≤ i ∧ i < row.length := by
  simp only [member?] at h
  split at h
  . obtain ⟨hlt, -⟩ := List.getElem?_eq_some_iff.1 h
    omega
  . simp at h

namespace Datum

def follow (row : List Datum) : List Int → Except PathFault Datum
  | [] => .error .empty
  | [i] =>
    match member? row i with
    | none => .error .outOfBounds
    | some d => .ok d
  | i :: j :: rest =>
    match member? row i with
    | none => .error .outOfBounds
    | some (.aggregate members) => follow members (j :: rest)
    | some _ => .error .intoScalar

def replace (row : List Datum) (d : Datum) : List Int → Except PathFault (List Datum)
  | [] => .error .empty
  | [i] =>
    match member? row i with
    | none => .error .outOfBounds
    | some _ => .ok (row.set i.toNat d)
  | i :: j :: rest =>
    match member? row i with
    | none => .error .outOfBounds
    | some (.aggregate members) =>
      match replace members d (j :: rest) with
      | .ok members => .ok (row.set i.toNat (.aggregate members))
      | .error fault => .error fault
    | some _ => .error .intoScalar

def room (row : List Datum) : List Int → Nat
  | [] => 0
  | [i] => (row.length - i).toNat
  | i :: j :: rest =>
    match member? row i with
    | some (.aggregate members) => room members (j :: rest)
    | _ => 0

theorem room_shiftLast_lt {row : List Datum} {path : List Int} {d : Datum}
    (h : follow row path = .ok d) : room row (shiftLast 1 path) < room row path := by
  fun_induction follow row path with
  | case1 => simp at h
  | case2 => simp at h
  | case3 row i d' hi =>
    have := lt_length_of_member? hi
    simp only [shiftLast, room]
    omega
  | case4 => simp at h
  | case5 row i j rest members hi ih =>
    cases rest with
    | nil => simpa only [shiftLast, room, hi] using ih h
    | cons k rest => simpa only [shiftLast, room, hi] using ih h
  | case6 => simp at h

end Datum

structure Memory where
  /-- Freed allocations hold nothing. -/
  allocations : Array (Option (List Datum)) := #[]
deriving Repr

namespace Memory

/--
Adds an allocation of `count` zeros of a type; the pointer leads to the first of them.
-/
def allocate (m : Memory) (ty : Ty) (count : Nat) : Pointer × Memory :=
  (.memory m.allocations.size [0],
    ⟨m.allocations.push (some (List.replicate count (Datum.zero ty)))⟩)

def isLive (m : Memory) (alloc : Nat) : Bool :=
  match m.allocations[alloc]? with
  | some (some _) => true
  | _ => false

def free (m : Memory) (p : Pointer) : Except RunError Unit × Memory :=
  match p with
  | .null => (.ok (), m)
  | .memory alloc _ =>
    match m.allocations[alloc]? with
    | none => (.error (.invalidPointer (.neverAllocated p)), m)
    | some cells =>
      -- the cells are taken out before it is known whether there are any
      let m : Memory := ⟨m.allocations.setIfInBounds alloc none⟩
      match cells with
      | none => (.error (.invalidPointer (.freedTwice p)), m)
      | some _ => (.ok (), m)

def row (m : Memory) (p : Pointer) : Except RunError (List Datum) :=
  match p with
  | .null => .error (.invalidPointer .nullDereference)
  | .memory alloc _ =>
    match m.allocations[alloc]? with
    | some (some cells) => .ok cells
    | _ => .error (.invalidPointer (.freed p))

def load (m : Memory) (p : Pointer) : Except RunError Datum :=
  match m.row p with
  | .error e => .error e
  | .ok cells =>
    match Datum.follow cells p.path with
    | .ok d => .ok d
    | .error fault => .error (.invalidPointer (fault.at p))

def store (m : Memory) (p : Pointer) (d : Datum) : Except RunError Unit × Memory :=
  match m.row p with
  | .error e => (.error e, m)
  | .ok cells =>
    match Datum.replace cells d p.path with
    | .ok cells => (.ok (), ⟨m.allocations.setIfInBounds p.alloc (some cells)⟩)
    | .error fault => (.error (.invalidPointer (fault.at p)), m)

def kept : Except RunError Unit × Memory → Except RunError Memory
  | (.ok _, m) => .ok m
  | (.error e, _) => .error e

theorem kept_eq_ok {r : Except RunError Unit × Memory} {m : Memory} :
    kept r = .ok m ↔ r = (.ok (), m) := by
  obtain ⟨_ | _, m'⟩ := r <;> simp [kept]

theorem free_of_error {m m' : Memory} {p : Pointer} {e : RunError} (h : m.free p = (.error e, m')) :
    m' = m := by
  unfold free at h
  split at h
  . cases h
  . next alloc path =>
    split at h
    . cases h
      rfl
    . next cells hcells =>
      cases cells with
      | some _ => cases h
      | none =>
        cases h
        -- there was nothing to take out
        refine congrArg Memory.mk (Array.ext_getElem? fun i => ?_)
        rw [Array.getElem?_setIfInBounds]
        split
        . next hi => rw [← hi, hcells, if_pos (Array.getElem?_eq_some_iff.1 hcells).1]
        . rfl

theorem store_of_error {m m' : Memory} {p : Pointer} {d : Datum} {e : RunError}
    (h : m.store p d = (.error e, m')) : m' = m := by
  unfold store at h
  split at h
  . cases h
    rfl
  . split at h
    . cases h
    . cases h
      rfl

def room (m : Memory) (p : Pointer) : Nat :=
  match m.row p with
  | .ok cells => Datum.room cells p.path
  | .error _ => 0

theorem row_offset_of_ok {m : Memory} {p : Pointer} {cells : List Datum} (h : m.row p = .ok cells)
    (amount : Int) : m.row (p.offset amount) = .ok cells := by
  cases p with
  | null => simp [row] at h
  | memory alloc path =>
    simp only [row, Pointer.offset] at h ⊢
    split at h
    . exact h
    . simp at h

theorem room_offset_lt {m : Memory} {p : Pointer} {d : Datum} (h : m.load p = .ok d) :
    m.room (p.offset 1) < m.room p := by
  simp only [load] at h
  split at h
  . simp at h
  . rename_i cells hrow
    split at h
    . rename_i hfollow
      simpa [room, row_offset_of_ok hrow, hrow] using Datum.room_shiftLast_lt hfollow
    . simp at h

def readBytes (m : Memory) (p : Pointer) : Except RunError (List UInt8) :=
  match _h : m.load p with
  | .error e => .error e
  | .ok (.int v) =>
    if v = 0 then .ok []
    else
      match m.readBytes (p.offset 1) with
      | .ok bytes => .ok (v.toUInt64.toUInt8 :: bytes)
      | .error e => .error e
  | .ok d => .error (.invalidPointer (.notAByte p d))
termination_by m.room p
decreasing_by exact room_offset_lt _h

def readText (m : Memory) (p : Pointer) : Except RunError String := do
  return Text.Utf8.decode (← m.readBytes p)

end Memory

end ScriptedIR
