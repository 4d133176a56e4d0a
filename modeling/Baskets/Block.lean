import Baskets.Codec.Inflate
import Baskets.Codec.Lz4
import Baskets.Codec.Xz
import Baskets.Codec.Zstandard
import Baskets.Fault
import Baskets.Text.Lossy

/-!
# Compressed blocks

Compressed data are blocks one behind the other.  A block has a header of nine bytes, namely the tag
of the algorithm, a method that does not matter, and the sizes before and after, each in three bytes
with the least first; its payload follows.  In front of an LZ4 payload stand eight bytes of a
checksum that is not compared.

How a payload is undone is a parameter, a `Codec` for each algorithm: what is said here about blocks
holds whatever the codecs do.  `Codec.standard` has the four codecs.
-/

namespace Baskets

/-- what becomes of a payload that is said to have a size when undone; nothing when it is refused -/
abbrev Codec := (payload : Bytes) → (size : Nat) → Option Bytes

/-- the codecs of the four algorithms -/
def Codec.standard : Algorithm → Codec
  | .zlib => fun payload _ => Codec.Inflate.zlib.eval payload
  | .lzma => fun payload _ => Codec.Xz.stream.eval payload
  | .lz4 => fun payload size => (Codec.Lz4.block size).eval payload
  | .zstd => fun payload size => (Codec.Zstandard.decode size).eval payload

/-- what is reported of a block: the algorithm, the bytes it takes with its header, and the bytes it
holds -/
structure BlockInfo where
  algorithm : Algorithm
  compressed : Nat
  uncompressed : Nat
deriving DecidableEq, Repr

/-- the algorithm of a tag of two bytes -/
def Algorithm.ofTag (tag : Bytes) : Except BlockFault Algorithm :=
  if tag = #[0x5a, 0x4c] then .ok .zlib
  else if tag = #[0x58, 0x5a] then .ok .lzma
  else if tag = #[0x4c, 0x34] then .ok .lz4
  else if tag = #[0x5a, 0x53] then .ok .zstd
  else if tag = #[0x43, 0x53] then .error .obsolete
  else .error (.unknownTag (Text.lossy tag))

namespace Block

def headerSize : Nat := 9

/-- undoes a payload, which for LZ4 begins with a checksum -/
def undo (codecs : Algorithm → Codec) (algorithm : Algorithm) (payload : Bytes) (size : Nat) :
    Except BlockFault Bytes :=
  let answer (out : Option Bytes) : Except BlockFault Bytes :=
    match out with
    | some out => .ok out
    | none => .error (.codec algorithm)
  match algorithm with
  | .lz4 =>
    if payload.size < 8 then .error .shortChecksum
    else answer (codecs .lz4 (payload.extract 8 payload.size) size)
  | algorithm => answer (codecs algorithm payload size)

/-- the block at an offset, `index` others being before it -/
def read (codecs : Algorithm → Codec) (data : Bytes) (offset index : Nat) :
    Except BlockFault (Bytes × BlockInfo) := do
  let start := offset + headerSize
  if data.size < start then throw (.shortHeader offset data.size)
  let algorithm ← Algorithm.ofTag (data.extract offset (offset + 2))
  let compressed := Bytes.little (data.extract (offset + 3) (offset + 6))
  let size := Bytes.little (data.extract (offset + 6) (offset + 9))
  if data.size < start + compressed then throw (.shortBlock compressed (data.size - start))
  let out ← undo codecs algorithm (data.extract start (start + compressed)) size
  if out.size ≠ size then throw (.blockLength index algorithm compressed out.size size)
  return (out, { algorithm, compressed := headerSize + compressed, uncompressed := size })

/-- the blocks from an offset on; each takes its header at least, so `fuel` counts bytes -/
def readAll (codecs : Algorithm → Codec) (data : Bytes) :
    (fuel offset : Nat) → (out : Bytes) → (done : List BlockInfo) →
      Except BlockFault (Bytes × List BlockInfo)
  | 0, _, out, done => .ok (out, done)
  | fuel + 1, offset, out, done =>
    if data.size ≤ offset then .ok (out, done)
    else do
      let (content, info) ← read codecs data offset done.length
      readAll codecs data fuel (offset + info.compressed) (out ++ content) (done ++ [info])

/-- undoes the blocks in the first `compressed` bytes, which together must hold `expected` bytes -/
def decompress (codecs : Algorithm → Codec) (data : Bytes) (compressed expected : Nat) :
    Except BlockFault (Bytes × List BlockInfo) := do
  if data.size < compressed then throw (.shortPayload compressed data.size)
  let (out, blocks) ← readAll codecs (data.extract 0 compressed) compressed 0 #[] []
  if out.size ≠ expected then throw (.totalLength out.size expected)
  return (out, blocks)

end Block

end Baskets
