/-!
Single precision. Floats are held as doubles; one of single precision is a double that was rounded
to the nearest single, a tie going to the even neighbour, and read as a double again.
-/

namespace ScriptedIR.Single

open Float.Model (Format UnpackedFloat)

def refit (format : Format) : UnpackedFloat → UnpackedFloat
  | .finite sign mantissa exponent _ => .round format sign mantissa exponent
  | x => x

def ofDouble (x : Float) : Float32 := .ofModel (.pack (refit .binary32 x.toModel.unpack))

def toDouble (x : Float32) : Float := .ofModel (.pack (refit .binary64 x.toModel.unpack))

end ScriptedIR.Single
