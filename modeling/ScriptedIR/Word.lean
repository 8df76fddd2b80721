/-!
Readings of a 64-bit word at a smaller width. Integers of every width are kept in 64-bit words;
what a word means is fixed by the width at which it is read.
-/

namespace ScriptedIR.Word

/--
The low `width` bits of `value`, sign-extended to 64 bits. A single bit reads as 0 or 1.
-/
def normalize (width : Nat) (value : Int64) : Int64 :=
  if width = 0 then 0
  else if width = 1 then value &&& 1
  else if 64 ≤ width then value
  else
    let shift := Int64.ofNat (64 - width)
    (value <<< shift) >>> shift

def unsigned (width : Nat) (value : Int64) : UInt64 :=
  if 64 ≤ width then value.toUInt64
  else value.toUInt64 &&& ((1 <<< UInt64.ofNat width) - 1)

/--
The low `width` bits of `value` as a two's complement number, so a set single bit is -1.
-/
def signed (width : Nat) (value : Int64) : Int64 :=
  if width = 1 then -(value &&& 1) else normalize width value

end ScriptedIR.Word
