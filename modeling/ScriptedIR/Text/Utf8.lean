/-!
Bytes and text. `encode` writes UTF-8; `decode` reads any bytes and puts one replacement character
for every maximal run of bytes that starts a character but does not complete it.
-/

namespace ScriptedIR.Text.Utf8

def encode (text : String) : List UInt8 :=
  text.toList.flatMap String.utf8EncodeChar

/--
What the next byte has to be: the start of a character, or one of `need` further bytes of a
character whose bits so far are `bits`, the first of them between `low` and `high`.
-/
inductive State where
  | start
  | within (bits need : Nat) (low high : UInt8)

def replacement : Char := '\uFFFD'

def begin (b : UInt8) : List Char × State :=
  if b < 0x80 then ([Char.ofNat b.toNat], .start)
  else if b < 0xC2 then ([replacement], .start)
  else if b < 0xE0 then ([], .within (b.toNat % 0x20) 1 0x80 0xBF)
  else if b == 0xE0 then ([], .within 0 2 0xA0 0xBF)
  else if b == 0xED then ([], .within 0xD 2 0x80 0x9F)
  else if b < 0xF0 then ([], .within (b.toNat % 0x10) 2 0x80 0xBF)
  else if b == 0xF0 then ([], .within 0 3 0x90 0xBF)
  else if b < 0xF4 then ([], .within (b.toNat % 0x08) 3 0x80 0xBF)
  else if b == 0xF4 then ([], .within 4 3 0x80 0x8F)
  else ([replacement], .start)

def step : State → UInt8 → List Char × State
  | .start, b => begin b
  | .within bits need low high, b =>
    if low ≤ b ∧ b ≤ high then
      let bits := bits * 0x40 + b.toNat % 0x40
      if need ≤ 1 then ([Char.ofNat bits], .start) else ([], .within bits (need - 1) 0x80 0xBF)
    else
      let (out, state) := begin b
      (replacement :: out, state)

def decodeFrom : State → List UInt8 → List Char
  | .start, [] => []
  | .within .., [] => [replacement]
  | state, b :: bytes =>
    let (out, state) := step state b
    out ++ decodeFrom state bytes

def decode (bytes : List UInt8) : String :=
  String.ofList (decodeFrom .start bytes)

end ScriptedIR.Text.Utf8
