import Baskets.Codec.Zstandard.Block

/-!
# Zstandard

The data are frames, one behind the other, some of which only have to be skipped.  A frame has a
header and blocks: plain bytes, one byte many times, or a compressed block.  A block can repeat what
the window still holds; before each block the window is cut to the size the header gives.  Neither
the size of the content nor its checksum is compared, but a checksum that is announced must be
there.
-/

namespace Baskets.Codec.Zstandard

/-- what the header of a frame says -/
structure FrameHeader where
  window : Nat
  hasChecksum : Bool

/-- the greatest window -/
def maxWindow : Nat := 100 * 1024 * 1024

/-- the greatest block -/
def maxBlock : Nat := 128 * 1024

/-- the size of a window by its exponent and eighths -/
def windowSize (descriptor : Nat) : Nat :=
  (8 + descriptor % 8) <<< (7 + descriptor / 8)

/-- the header of a frame, after its magic number -/
def frameHeader : BitScan FrameHeader := do
  let flags ← BitScan.little 1
  let single := flags.testBit 5
  let descriptor ← if single then pure 0 else BitScan.little 1
  let dictionary ← match flags % 4 with
    | 0 => pure 0
    | 1 => BitScan.little 1
    | 2 => BitScan.little 2
    | _ => BitScan.little 4
  BitScan.require (dictionary = 0)
  let size ← match flags / 64 with
    | 0 => if single then BitScan.little 1 else pure 0
    | 1 => (· + 256) <$> BitScan.little 2
    | 2 => BitScan.little 4
    | _ => BitScan.little 8
  let window := if single then size else windowSize descriptor
  BitScan.require (window ≤ maxWindow)
  return { window, hasChecksum := flags.testBit 2 }

/-- the blocks of a frame, for an output of at most `limit` bytes -/
def blocks (window limit : Nat) : (fuel : Nat) → Carried → (floor : Nat) → Bytes → BitScan Bytes
  | 0, _, _, _ => failure
  | fuel + 1, carried, floor, out => do
    let last ← BitScan.take 1
    let kind ← BitScan.take 2
    let size ← BitScan.take 21
    BitScan.require (size ≤ maxBlock)
    let (out, carried) ← match kind with
      | 0 => do pure (out ++ (← BitScan.bytes size), carried)
      | 1 => do pure (out ++ Array.replicate size (← BitScan.little 1).toUInt8, carried)
      | 2 => do
        let data ← BitScan.bytes size
        BitScan.ofOption ((block carried floor out).eval data)
      | _ => failure
    BitScan.require (out.size ≤ limit)
    if last = 1 then return out
    else blocks window limit fuel carried (max floor (out.size - window)) out

/-- frames up to the end of the data -/
def frames (limit : Nat) : (fuel : Nat) → Bytes → BitScan Bytes
  | 0, _ => failure
  | fuel + 1, out => do
    if ← BitScan.atEnd then return out
    let magic ← BitScan.little 4
    if magic / 16 = 0x184d2a5 then
      let _ ← BitScan.bytes (← BitScan.little 4)
      frames limit fuel out
    else
      BitScan.require (magic = 0xfd2fb528)
      let header ← frameHeader
      let out ← blocks header.window limit (← BitScan.left) {} out.size out
      if header.hasChecksum then let _ ← BitScan.bytes 4
      frames limit fuel out

/-- all data, for an output of at most `limit` bytes -/
def decode (limit : Nat) : BitScan Bytes := do frames limit ((← BitScan.left) + 1) #[]

end Baskets.Codec.Zstandard
