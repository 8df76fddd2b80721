import ScriptedIR.Decimal.Shortest
import ScriptedIR.Run.Error

/-!
Arithmetic of a running program: integer operations at a width, float operations, comparisons and
casts. Integers come and go in 64-bit words, so every result is normalized to its width again.
-/

namespace ScriptedIR

/--
An integer operation at a width. The right operand of a shift is read without sign; a shift by the
width or more leaves zero, or the sign.
-/
def intBinary (function : String) (op : BinaryOp) (width : Nat) (a b : Int64) :
    Except RunError Int64 :=
  let ua := Word.unsigned width a
  let ub := Word.unsigned width b
  let sa := Word.signed width a
  let sb := Word.signed width b
  let far : Bool := width ≤ ub.toNat
  let normal (v : Int64) : Except RunError Int64 := .ok (Word.normalize width v)
  match op with
  | .add => normal (a + b)
  | .sub => normal (a - b)
  | .mul => normal (a * b)
  | .sdiv => if sb = 0 then .error (.divisionByZero function) else normal (sa / sb)
  | .srem => if sb = 0 then .error (.divisionByZero function) else normal (sa % sb)
  | .udiv => if ub = 0 then .error (.divisionByZero function) else normal (ua / ub).toInt64
  | .urem => if ub = 0 then .error (.divisionByZero function) else normal (ua % ub).toInt64
  | .and => normal (a &&& b)
  | .or => normal (a ||| b)
  | .xor => normal (a ^^^ b)
  | .shl => normal (if far then 0 else a <<< ub.toInt64)
  | .lshr => normal (if far then 0 else (ua >>> ub).toInt64)
  | .ashr => normal (if far then (if sa < 0 then -1 else 0) else sa >>> ub.toInt64)
  | op => .error (.typeError (.notAnInteger op))

/--
The remainder of a division whose quotient is rounded toward zero. It is exact and has the sign of
the dividend.
-/
def floatRem (x y : Float) : Float :=
  match Decimal.parts x, Decimal.parts y with
  | .finite negative ⟨m, e⟩, .finite _ ⟨n, f⟩ =>
    if n = 0 then 0.0 / 0.0
    else
      let low := min e f
      let rest := (m <<< (e - low).toNat) % (n <<< (f - low).toNat)
      let magnitude := (Float.ofNat rest).scaleB low
      if negative then -magnitude else magnitude
  | .finite .., .infinite _ => x
  | _, _ => 0.0 / 0.0

def floatBinary (op : BinaryOp) (x y : Float) : Except RunError Float :=
  match op with
  | .fadd => .ok (x + y)
  | .fsub => .ok (x - y)
  | .fmul => .ok (x * y)
  | .fdiv => .ok (x / y)
  | .frem => .ok (floatRem x y)
  | op => .error (.typeError (.notAFloat op))

def binary (function : String) (op : BinaryOp) : Ty → Datum → Datum → Except RunError Datum
  | .vector _ element, a, b => do
    let lanes ← (List.zip (← a.toAggregate) (← b.toAggregate)).mapM fun (x, y) =>
      binary function op element x y
    return .aggregate lanes
  | ty, a, b => do
    if op.isFloat then
      return .float (ty.round (← floatBinary op (← a.toFloat) (← b.toFloat)))
    else
      return .int (← intBinary function op ty.wordWidth (← a.toInt) (← b.toInt))

def compareInts (predicate : IntPredicate) (width : Nat) (a b : Int64) : Bool :=
  let ua := Word.unsigned width a
  let ub := Word.unsigned width b
  let sa := Word.signed width a
  let sb := Word.signed width b
  match predicate with
  | .eq => ua = ub
  | .ne => ua ≠ ub
  | .ugt => ub < ua
  | .uge => ub ≤ ua
  | .ult => ua < ub
  | .ule => ua ≤ ub
  | .sgt => sb < sa
  | .sge => sb ≤ sa
  | .slt => sa < sb
  | .sle => sa ≤ sb

/--
Where a pointer stands among all pointers: by its allocation, a signed word, then by its path. Null
stands right before the first allocation.
-/
def Pointer.place : Pointer → Int64 × List Int
  | .null => (-1, [])
  | .memory alloc path => (Int64.ofNat alloc, path)

def Pointer.before (p q : Pointer) : Bool :=
  p.place.1 < q.place.1 || p.place.1 = q.place.1 && p.place.2 < q.place.2

def comparePointers (predicate : IntPredicate) (p q : Pointer) : Bool :=
  match predicate with
  | .eq => p.place = q.place
  | .ne => p.place ≠ q.place
  | .ugt | .sgt => q.before p
  | .uge | .sge => !p.before q
  | .ult | .slt => p.before q
  | .ule | .sle => !q.before p

def compareData (predicate : IntPredicate) (ty : Ty) (a b : Datum) : Except RunError Bool :=
  match a, b with
  | .pointer p, .pointer q => .ok (comparePointers predicate p q)
  | a, b => do return compareInts predicate ty.wordWidth (← a.toInt) (← b.toInt)

/--
A pointer as an integer: one more than the allocation in the high half, the element in the low half.
-/
def encodePointer : Pointer → Except RunError Int64
  | .null => .ok 0
  | .memory alloc [i] => do
    let high ← Word.checked "add" ((Int64.ofNat alloc).toInt + 1)
    Word.checked "add" ((Int64.ofInt (high.toInt * UInt32.size)).toInt + (Int64.ofInt i).toInt)
  | p => .error (.typeError (.interiorPointer p))

/--
An integer as a pointer. What is no encoding leads into the first allocation.
-/
def decodePointer (v : Int64) : Pointer :=
  if v = 0 then .null
  else
    let high := v.toInt / UInt32.size
    .memory (high - 1).toNat [v.toInt % UInt32.size]

def descend (target : Ty) : Ty → Pointer → Pointer
  | .struct name (first :: rest) packed, p =>
    if .struct name (first :: rest) packed = target then p else descend target first (p.child 0)
  | .array n element, p =>
    if .array n element = target then p else descend target element (p.child 0)
  | .vector n element, p =>
    if .vector n element = target then p else descend target element (p.child 0)
  | _, p => p

/--
A datum read as another type of the same size. A pointer to an aggregate becomes a pointer to its
leading member of the target type.
-/
def bitCast (d : Datum) (source target : Ty) : Except RunError Datum :=
  if source = target then .ok d
  else
    match source, target, d with
    | .pointer s, .pointer t, .pointer p => .ok (.pointer (descend t s p))
    | .int .w32, .float .single, d => do
      return .float (Single.toDouble (.ofBits (← d.toInt).toUInt64.toUInt32))
    | .float .single, .int .w32, d => do
      return .int (Single.ofDouble (← d.toFloat)).toBits.toInt32.toInt64
    | .int .w64, .float .double, d => do return .float (Float.ofBits (← d.toInt).toUInt64)
    | .float .double, .int .w64, d => do return .int (← d.toFloat).toBits.toInt64
    | _, _, d => .ok d

/--
A cast of a datum from one type to another. Floats beyond the range of words go to its ends, and a
NaN to zero.
-/
def castDatum (op : CastOp) (d : Datum) (source target : Ty) : Except RunError Datum :=
  let width := source.wordWidth
  let wrap (v : Int64) : Datum := .int (Word.normalize target.wordWidth v)
  match op with
  | .trunc => do return wrap (← d.toInt)
  | .zext => do return wrap (Word.unsigned width (← d.toInt)).toInt64
  | .sext => do return wrap (Word.signed width (← d.toInt))
  | .fptrunc | .fpext => do return .float (target.round (← d.toFloat))
  | .fptosi => do return wrap (← d.toFloat).toInt64
  | .fptoui => do return wrap (← d.toFloat).toUInt64.toInt64
  | .sitofp => do return .float (target.round (Word.signed width (← d.toInt)).toFloat)
  | .uitofp => do return .float (target.round (Word.unsigned width (← d.toInt)).toFloat)
  | .ptrtoint => do return wrap (← encodePointer (← d.toPointer))
  | .inttoptr => do return .pointer (decodePointer (← d.toInt))
  | .bitcast => bitCast d source target

def pointerDistance : Pointer → Pointer → Except RunError Int64
  | .null, .null => .ok 0
  | .memory a p, .memory b q =>
    if a = b ∧ p.length = q.length then
      match p.getLast?, q.getLast? with
      | some i, some j =>
        if p.dropLast = q.dropLast then
          Word.checked "subtract" ((Int64.ofInt i).toInt - (Int64.ofInt j).toInt)
        else .error (.typeError .unrelatedPointers)
      | _, _ => .error (.breakdown .noEntry)
    else .error (.typeError .unrelatedPointers)
  | _, _ => .error (.typeError .unrelatedPointers)

def extractMember : Datum → List Nat → Except RunError Datum
  | d, [] => .ok d
  | d, i :: rest => do
    match (← d.toAggregate)[i]? with
    | some member => extractMember member rest
    | none => .error (.typeError (.memberRange i))

def insertMember (element : Datum) : Datum → List Nat → Except RunError Datum
  | _, [] => .ok element
  | .aggregate members, i :: rest =>
    match members[i]? with
    | some member => do return .aggregate (members.set i (← insertMember element member rest))
    | none => .error (.typeError (.memberRange i))
  | _, _ => .error (.typeError .insertIntoScalar)

def extractLane (d : Datum) (i : Int64) : Except RunError Datum := do
  let lanes ← d.toAggregate
  match if 0 ≤ i.toInt then lanes[i.toInt.toNat]? else none with
  | some lane => .ok lane
  | none => .error (.typeError (.laneRange i))

def insertLane (d element : Datum) (i : Int64) : Except RunError Datum :=
  match d with
  | .aggregate lanes =>
    if 0 ≤ i.toInt ∧ i.toInt < lanes.length then .ok (.aggregate (lanes.set i.toInt.toNat element))
    else .error (.typeError (.laneRange i))
  | _ => .error (.typeError .insertLaneIntoScalar)

def shuffleLanes (a b : Datum) (mask : List Nat) : Except RunError Datum := do
  let first ← a.toAggregate
  let lanes := first ++ (← b.toAggregate)
  let picked ← mask.mapM fun i =>
    match lanes[i]? with
    | some lane => .ok lane
    | none => .error (.typeError (.maskRange i))
  return .aggregate picked

end ScriptedIR
