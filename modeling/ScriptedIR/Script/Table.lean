import ScriptedIR.Module

/-!
Tables of named things, some for everyone and some for the owner only. A name stands on one side of
a table at a time.
-/

namespace ScriptedIR

inductive Visibility where
  | exported
  | internal
deriving DecidableEq, Repr

namespace Visibility

def text : Visibility → String
  | exported => "public"
  | internal => "private"

def linkage : Visibility → Linkage
  | exported => .external
  | internal => .hidden

end Visibility

inductive Reach where
  | exported
  | everything
deriving DecidableEq, Repr

structure Table (α : Type) where
  exported : Names α := ∅
  internal : Names α := ∅

namespace Table

variable {α : Type}

def get? (t : Table α) (name : String) (reach : Reach) : Option α :=
  match reach with
  | .exported => t.exported[name]?
  | .everything => t.exported[name]?.or t.internal[name]?

/--
Gives a name a meaning on one side and takes it off the other.
-/
def insert (t : Table α) (name : String) (v : Visibility) (a : α) : Table α :=
  match v with
  | .exported => ⟨t.exported.insert name a, t.internal.erase name⟩
  | .internal => ⟨t.exported.erase name, t.internal.insert name a⟩

def move (t : Table α) (name : String) (v : Visibility) : Table α :=
  match t.get? name .everything with
  | some a => t.insert name v a
  | none => t

def names (t : Table α) (reach : Reach) : List String :=
  match reach with
  | .exported => t.exported.keys
  | .everything => (t.exported.keys ++ t.internal.keys).mergeSort (· ≤ ·)

@[simp]
theorem get?_insert_self (t : Table α) (name : String) (v : Visibility) (a : α) :
    (t.insert name v a).get? name .everything = some a := by
  cases v <;> simp [insert, get?]

theorem get?_insert_of_ne {name other : String} (h : name ≠ other) (t : Table α) (v : Visibility)
    (a : α) (reach : Reach) : (t.insert name v a).get? other reach = t.get? other reach := by
  cases v <;> cases reach <;> simp [insert, get?, Std.ExtTreeMap.getElem?_insert,
    Std.ExtTreeMap.getElem?_erase, h]

end Table

end ScriptedIR
