import ScriptedIR.Decimal.Shortest

/-!
Text of doubles: with the fewest digits, laid out as a `Style` says, or with a fixed number of
places.
-/

namespace ScriptedIR.Decimal

structure Style where
  /-- Whether a number whose leading digit stands at this power of ten is written positionally. -/
  positional : Int → Bool
  pointed : Bool

def zeros (count : Nat) : String :=
  String.ofList (List.replicate count '0')

def positionalText (pointed : Bool) (digits : String) (point : Int) : String :=
  let count := digits.length
  if point ≤ 0 then "0." ++ zeros (-point).toNat ++ digits
  else if count ≤ point then
    digits ++ zeros (point - count).toNat ++ (if pointed then ".0" else "")
  else
    let cs := digits.toList
    String.ofList (cs.take point.toNat) ++ "." ++ String.ofList (cs.drop point.toNat)

def scientificText (digits : String) (exponent : Int) : String :=
  let head := String.ofList (digits.toList.take 1)
  let tail := String.ofList (digits.toList.drop 1)
  head ++ (if tail.isEmpty then "" else "." ++ tail) ++ "e" ++ toString exponent

def sign (negative : Bool) : String :=
  if negative then "-" else ""

def Style.text (style : Style) (x : Float) : String :=
  match parts x with
  | .nan => "NaN"
  | .infinite negative => sign negative ++ "inf"
  | .finite negative magnitude =>
    if magnitude.mantissa = 0 then sign negative ++ (if style.pointed then "0.0" else "0")
    else
      let short := magnitude.shortest
      let digits := toString short.digits
      let point := digits.length + short.exponent
      sign negative ++
        if style.positional (point - 1) then positionalText style.pointed digits point
        else scientificText digits (point - 1)

def roundDiv (num den : Nat) : Nat :=
  let q := num / den
  let r := num % den
  if 2 * r < den then q else if den < 2 * r then q + 1 else q + q % 2

def fixedText (places : Nat) (x : Float) : String :=
  match parts x with
  | .nan => "NaN"
  | .infinite negative => sign negative ++ "inf"
  | .finite negative ⟨mantissa, exponent⟩ =>
    let num := (mantissa * Nat.pow 10 places) <<< exponent.toNat
    let scaled := roundDiv num (1 <<< (-exponent).toNat)
    let digits := toString scaled
    let digits := zeros (places + 1 - digits.length) ++ digits
    sign negative ++ positionalText false digits (digits.length - places)

end ScriptedIR.Decimal
