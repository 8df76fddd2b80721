/-!
Decimal digits of binary floating point numbers, by exact arithmetic on natural numbers.
`Dyadic.shortest` finds the fewest digits that read back as the same double; of two such numbers
with equally many digits the nearer one is taken, and a tie goes to the greater.
-/

namespace ScriptedIR.Decimal

structure Dyadic where
  mantissa : Nat
  exponent : Int
deriving DecidableEq, Repr

structure Digits where
  digits : Nat
  exponent : Int
deriving DecidableEq, Repr

inductive Parts where
  | nan
  | infinite (negative : Bool)
  | finite (negative : Bool) (magnitude : Dyadic)
deriving DecidableEq, Repr

def parts (x : Float) : Parts :=
  let bits := x.toBits.toNat
  let negative := 1 <<< 63 ≤ bits
  let exponent : Nat := (bits >>> 52) % (1 <<< 11)
  let fraction : Nat := bits % (1 <<< 52)
  if exponent = 2047 then
    if fraction = 0 then .infinite negative else .nan
  else if exponent = 0 then .finite negative ⟨fraction, -1074⟩
  else .finite negative ⟨1 <<< 52 + fraction, (exponent : Int) - 1075⟩

namespace Dyadic

/--
Scale factors `(a, b)` with `x * 2 ^ e ≤ c * 10 ^ k ↔ x * a ≤ c * b` for all `x` and `c`.
-/
def scale (e k : Int) : Nat × Nat :=
  (Nat.pow 10 (-k).toNat <<< e.toNat, Nat.pow 10 k.toNat <<< (-e).toNat)

/--
The least `n` with `x < 10 ^ n`, for `x ≠ 0`: the place of the leading digit. It is at most two
away from what the position of the leading bit suggests.
-/
def decimals (x : Dyadic) : Int :=
  let guess := (x.mantissa.log2 + x.exponent) * 30103 / 100000
  let below (n : Int) : Bool :=
    let (a, b) := scale x.exponent n
    x.mantissa * a < b
  if below (guess - 1) then guess - 1
  else if below guess then guess
  else if below (guess + 1) then guess + 1
  else guess + 2

/--
The multiple of `10 ^ k` among the two neighbours of `x` that reads back as `x`, if there is one.
The numbers that do lie between the midpoints to the next doubles, the midpoints included when the
mantissa is even. Below a power of two the next double is only half as far away.
-/
def nearby (x : Dyadic) (k : Int) : Option Nat :=
  let (a, b) := scale (x.exponent - 2) k
  let mid := 4 * x.mantissa
  let narrow := x.mantissa = 1 <<< 52 ∧ -1074 < x.exponent
  let low := if narrow then mid - 1 else mid - 2
  let high := mid + 2
  let inside (c : Nat) : Bool :=
    if x.mantissa % 2 = 0 then low * a ≤ c * b ∧ c * b ≤ high * a
    else low * a < c * b ∧ c * b < high * a
  let c := mid * a / b
  match inside c, inside (c + 1) with
  | true, true => if mid * a - c * b < (c + 1) * b - mid * a then some c else some (c + 1)
  | true, false => some c
  | false, true => some (c + 1)
  | false, false => none

def search (x : Dyadic) (place : Int) (digits : Nat) : Nat → Digits
  | 0 => ⟨0, 0⟩
  | count + 1 =>
    let k := place - digits
    match x.nearby k with
    | some c => ⟨c, k⟩
    | none => search x place (digits + 1) count

end Dyadic

def Digits.strip (d : Digits) : Nat → Digits
  | 0 => d
  | count + 1 =>
    if d.digits % 10 = 0 then Digits.strip ⟨d.digits / 10, d.exponent + 1⟩ count else d

/--
The fewest digits that read back as `x`, for `x ≠ 0`; seventeen always suffice.
-/
def Dyadic.shortest (x : Dyadic) : Digits :=
  (x.search x.decimals 1 17).strip 17

end ScriptedIR.Decimal
