import ScriptedIR.Decimal.Nearest
import ScriptedIR.Text.Blank

/-!
Numbers at the start of a text. Blanks in front and anything behind the number are ignored, and a
text that does not start with a number reads as zero.
-/

namespace ScriptedIR.Text

def ofDigits (digits : List Char) : Nat :=
  digits.foldl (fun n c => 10 * n + (c.toNat - '0'.toNat)) 0

def splitSign : List Char → Bool × List Char
  | '-' :: cs => (true, cs)
  | '+' :: cs => (false, cs)
  | cs => (false, cs)

/--
The digits behind a point. There are none if no digit follows the point, and then the point is left
in the rest.
-/
def splitFraction : List Char → List Char × List Char
  | '.' :: cs =>
    let digits := cs.takeWhile Char.isDigit
    if digits.isEmpty then ([], '.' :: cs) else (digits, cs.dropWhile Char.isDigit)
  | cs => ([], cs)

def exponent : List Char → Int
  | c :: cs =>
    if c = 'e' ∨ c = 'E' then
      let (negative, cs) := splitSign cs
      let n : Int := ofDigits (cs.takeWhile Char.isDigit)
      if negative then -n else n
    else 0
  | [] => 0

/--
The integer at the start of a text. One that needs more than 64 bits reads as zero.
-/
def leadingInt (s : String) : Int64 :=
  let (negative, cs) := splitSign (s.toList.dropWhile isBlank)
  let n : Int := ofDigits (cs.takeWhile Char.isDigit)
  let n := if negative then -n else n
  if Int64.minValue.toInt ≤ n ∧ n ≤ Int64.maxValue.toInt then Int64.ofInt n else 0

/--
The decimal number at the start of a text, as the nearest double. There has to be a digit before the
point.
-/
def leadingFloat (s : String) : Float :=
  let (negative, cs) := splitSign (s.toList.dropWhile isBlank)
  let whole := cs.takeWhile Char.isDigit
  if whole.isEmpty then 0.0
  else
    let (fraction, cs) := splitFraction (cs.dropWhile Char.isDigit)
    let x := Decimal.nearest (ofDigits (whole ++ fraction)) (exponent cs - fraction.length)
    if negative then -x else x

end ScriptedIR.Text
