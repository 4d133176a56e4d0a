import Baskets.Codec.Checksum
import Baskets.Codec.Lzma.Chunks

/-!
# XZ streams

A stream is a header, blocks, an index of their sizes and a footer that repeats the header.  Each of
the parts has a checksum, and so may the content of a block.  Only LZMA chunks are undone, and of
the kinds of checksum for content the one of 32 bytes is known but not computed.
-/

namespace Baskets.Codec.Xz

/-- the checksum of the content of each block -/
inductive Check where
  | none
  | crc32
  | crc64
  /-- 32 bytes that cannot be checked -/
  | long
deriving DecidableEq, Repr

def Check.ofByte? : Nat → Option Check
  | 0 => some .none
  | 1 => some .crc32
  | 4 => some .crc64
  | 10 => some .long
  | _ => Option.none

/-- the sizes of a block: without its padding, and of its content -/
structure Sizes where
  packed : Nat
  content : Nat
deriving DecidableEq, Repr

/-! ## parts -/

/-- the position in bytes -/
def position : BitScan Nat := do return (← get).pos / 8

/-- the bytes from a position up to here -/
def since (start : Nat) : BitScan Bytes := do
  let s ← get
  return s.data.extract start (s.pos / 8)

/-- the CRC-32 of some bytes -/
def checkedBy (bytes : Bytes) : BitScan Unit := do
  BitScan.require ((← BitScan.little 4) = Checksum.crc32 bytes)

/-- zeros up to a multiple of four bytes from a position on -/
def padding (start : Nat) : BitScan Unit := do
  let count := (4 - ((← position) - start) % 4) % 4
  BitScan.require ((← BitScan.little count) = 0)

/-- a number in at most `count` bytes of seven bits, the least first; all but the last byte have
their eighth bit set -/
def number : (count : Nat) → BitScan Nat
  | 0 => failure
  | count + 1 => do
    let byte ← BitScan.little 1
    if byte < 0x80 then return byte else return byte % 0x80 + 0x80 * (← number count)

def size : BitScan Nat := number 9

/-- the two bytes that say how content is checked -/
def flags : BitScan Check := do
  BitScan.require ((← BitScan.little 1) = 0)
  BitScan.ofOption (Check.ofByte? (← BitScan.little 1))

/-! ## blocks -/

/-- what the header of a block says -/
structure BlockHeader where
  filters : Nat
  packed : Option Nat
  content : Option Nat

/-- the filters of a block, each of which must be LZMA chunks with one byte of properties -/
def filters : Nat → BitScan Unit
  | 0 => return
  | count + 1 => do
    BitScan.require ((← size) = 0x21)
    BitScan.require ((← size) = 1)
    let _ ← BitScan.bytes 1
    filters count

/-- the header of a block, which is filled up with zeros -/
def blockHeader : BitScan BlockHeader := do
  let flags ← BitScan.little 1
  BitScan.require (flags / 4 % 16 = 0)
  let packed ← if flags.testBit 6 then some <$> size else pure none
  let content ← if flags.testBit 7 then some <$> size else pure none
  let count := flags % 4 + 1
  filters count
  BitScan.require ((← BitScan.rest).all (· = 0))
  return { filters := count, packed, content }

/-- undoes the filters behind the first one -/
def refilter : Nat → Bytes → Option Bytes
  | 0, content => some content
  | count + 1, content => (Lzma.decode.eval content).bind (refilter count)

/-- the checksum of the content of a block -/
def checkContent (check : Check) (content : Bytes) : BitScan Unit := do
  match check with
  | .none => return
  | .crc32 => checkedBy content
  | .crc64 => BitScan.require ((← BitScan.little 8) = Checksum.crc64 content)
  | .long => failure

/-- a block that began with the byte `quarter` at a position, and its sizes -/
def block (check : Check) (start quarter : Nat) : BitScan (Bytes × Sizes) := do
  let bytes ← BitScan.bytes (4 * quarter - 1)
  let header ← BitScan.ofOption (blockHeader.eval bytes)
  checkedBy (← since start)
  let packedStart ← position
  let first ← Lzma.decode
  let packed := (← position) - packedStart
  BitScan.require (header.packed.all (· = packed))
  let content ← BitScan.ofOption (refilter (header.filters - 1) first)
  BitScan.require (header.content.all (· = content.size))
  let unpadded := (← position) - start
  padding start
  let checkStart ← position
  checkContent check content
  return (content, { packed := unpadded + ((← position) - checkStart), content := content.size })

/-! ## the index and the whole -/

/-- the sizes of all blocks once more -/
def entries : List Sizes → BitScan Unit
  | [] => return
  | sizes :: rest => do
    BitScan.require ((← size) = sizes.packed)
    BitScan.require ((← size) = sizes.content)
    entries rest

/-- the index, whose first byte was zero -/
def index (start : Nat) (blocks : List Sizes) : BitScan Unit := do
  BitScan.require ((← size) = blocks.length)
  entries blocks
  padding start
  checkedBy (← since start)

/-- the blocks and the index, with the size of the index -/
def body (check : Check) : (fuel : Nat) → (done : List Sizes) → Bytes → BitScan (Bytes × Nat)
  | 0, _, _ => failure
  | fuel + 1, done, out => do
    let start ← position
    let quarter ← BitScan.little 1
    if quarter = 0 then
      index start done.reverse
      return (out, (← position) - start)
    else
      let (content, sizes) ← block check start quarter
      body check fuel (sizes :: done) (out ++ content)

/-- one stream, with nothing behind it -/
def stream : BitScan Bytes := do
  BitScan.require ((← BitScan.bytes 6) = #[0xfd, 0x37, 0x7a, 0x58, 0x5a, 0])
  let start ← position
  let check ← flags
  checkedBy (← since start)
  let (out, indexSize) ← body check (← BitScan.left) [] #[]
  let sum ← BitScan.little 4
  let footer ← position
  BitScan.require (4 * ((← BitScan.little 4) + 1) = indexSize)
  BitScan.require ((← flags) = check)
  BitScan.require (sum = Checksum.crc32 (← since footer))
  BitScan.require ((← BitScan.bytes 2) = #[0x59, 0x5a])
  BitScan.require (← BitScan.atEnd)
  return out

end Baskets.Codec.Xz
