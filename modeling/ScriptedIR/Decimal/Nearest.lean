import ScriptedIR.Decimal.Text

/-!
The double nearest to a decimal number.
-/

namespace ScriptedIR.Decimal

/--
The bits of the double nearest to the positive quotient `num / den`, a tie going to the even
neighbour. With `q` the exponent of the last place, `m * 2 ^ q` has the bits
`(q + 1074) * 2 ^ 52 + m`, for subnormal numbers as for others; a carry out of `m` is right too.
-/
def nearestBits (num den : Nat) : Nat :=
  let guess : Int := (num.log2 : Int) - den.log2
  let top := if den <<< guess.toNat ≤ num <<< (-guess).toNat then guess else guess - 1
  let q := max (top - 52) (-1074)
  let m := roundDiv (num <<< (-q).toNat) (den <<< q.toNat)
  min ((q + 1074).toNat <<< 52 + m) 0x7FF0000000000000

/--
The double nearest to `digits * 10 ^ exponent`. Far outside the range of doubles the answer is known
without the power.
-/
def nearest (digits : Nat) (exponent : Int) : Float :=
  let place := (toString digits).length + exponent
  if digits = 0 ∨ place < -330 then 0.0
  else if 310 < place then 1.0 / 0.0
  else
    let num := digits * Nat.pow 10 exponent.toNat
    Float.ofBits (.ofNat (nearestBits num (Nat.pow 10 (-exponent).toNat)))

end ScriptedIR.Decimal
