import Baskets.Bytes

/-!
# Repetitions in decompressed data

All codecs write some bytes anew and repeat others that stand some distance before the end.  The
repeated part may run into what it adds itself, so it is added byte by byte.
-/

namespace Baskets.Codec

/-- the byte at a distance before the end, or zero before the first byte -/
def byteBack (out : Bytes) (distance : Nat) : UInt8 :=
  if distance ≤ out.size then out.getD (out.size - distance) 0 else 0

/-- repeats `length` bytes from a distance before the end -/
def copyBack : (length distance : Nat) → Bytes → Bytes
  | 0, _, out => out
  | length + 1, distance, out => copyBack length distance (out.push (byteBack out distance))

end Baskets.Codec
