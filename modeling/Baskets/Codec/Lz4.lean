import Baskets.Codec.Bits
import Baskets.Codec.Window

/-!
# LZ4 blocks

A block is a list of sequences.  A sequence has a token with two half bytes, some literal bytes, and
a repetition; the half bytes are the number of literals and the length of the repetition, less 4,
and the greatest half byte means that more bytes of length follow.  The last sequence has literals
only.  A block may stay below the announced size, but not go beyond it.
-/

namespace Baskets.Codec.Lz4

/-- bytes of a length up to the first that is not the greatest -/
def lengthBytes : (fuel : Nat) → BitScan Nat
  | 0 => failure
  | fuel + 1 => do
    let byte ← BitScan.little 1
    if byte = 255 then return 255 + (← lengthBytes fuel) else return byte

/-- the length that begins with a half byte -/
def extended (half : Nat) : BitScan Nat := do
  if half = 15 then return 15 + (← lengthBytes (← BitScan.left)) else return half

def sequences (limit : Nat) : (fuel : Nat) → Bytes → BitScan Bytes
  | 0, _ => failure
  | fuel + 1, out => do
    let token ← BitScan.little 1
    let out := out ++ (← BitScan.bytes (← extended (token / 16)))
    BitScan.require (out.size ≤ limit)
    if ← BitScan.atEnd then return out
    let distance ← BitScan.little 2
    let length := 4 + (← extended (token % 16))
    BitScan.require (0 < distance ∧ distance ≤ out.size ∧ out.size + length ≤ limit)
    sequences limit fuel (copyBack length distance out)

/-- a block of at most `limit` bytes; each sequence takes a byte at least -/
def block (limit : Nat) : BitScan Bytes := do sequences limit (← BitScan.left) #[]

end Baskets.Codec.Lz4
