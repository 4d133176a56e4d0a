import Baskets.Codec.Bits
import Baskets.Codec.Lzma

/-!
# Chunks of LZMA data

The data are chunks, each of plain bytes or of LZMA symbols with the sizes before and after.  The
first byte of a chunk also says what is forgotten before it: nothing, what was learnt, that and the
properties, or the dictionary as well.  A zero byte ends the data.
-/

namespace Baskets.Codec.Lzma

/-- what carries over from chunk to chunk -/
structure ChunkState where
  properties : Properties := {}
  chances : Array Nat := Contexts.fresh {}
  history : History := {}

namespace ChunkState

/-- forgets the bytes before, so that no repetition reaches them -/
def dropDictionary (s : ChunkState) : ChunkState :=
  { s with history := { s.history with floor := s.history.out.size } }

/-- forgets what was learnt -/
def restart (s : ChunkState) (properties : Properties) : ChunkState where
  properties := properties
  chances := Contexts.fresh properties
  history := { s.history with phase := 0, recent := (0, 0, 0, 0) }

end ChunkState

/-- a number of two bytes, the greater first, and one more -/
def chunkSize : BitScan Nat := do
  let bytes ← BitScan.bytes 2
  return Bytes.big bytes + 1

/-- a chunk of plain bytes -/
def plainChunk (s : ChunkState) : BitScan ChunkState := do
  let bytes ← BitScan.bytes (← chunkSize)
  return { s with history := { s.history with out := s.history.out ++ bytes } }

/-- symbols that make `size` bytes, out of at most `packed` bytes; the position afterwards is behind
the last byte that was needed -/
def symbolChunk (s : ChunkState) (size packed : Nat) : BitScan ChunkState := do
  let stream ← get
  let pos := stream.pos / 8
  let goal := s.history.out.size + size
  let decoder : RangeDecoder := {
    data := stream.data
    pos
    stop := min (pos + packed) stream.data.size
    range := 0
    code := 0
    chances := s.chances }
  let properties := s.properties
  let whole : RangeScan History := do
    RangeScan.start
    symbols properties goal size s.history
  match whole.run decoder with
  | none => failure
  | some (history, decoder) =>
    BitScan.require (history.out.size = goal)
    set { stream with pos := 8 * decoder.pos }
    return { properties, chances := decoder.chances, history }

/-- a chunk of symbols, whose first byte is `status` -/
def codedChunk (status : Nat) (s : ChunkState) : BitScan ChunkState := do
  let size := 0x10000 * (status % 0x20) + (← chunkSize)
  let packed ← chunkSize
  let s := if status / 0x20 % 4 = 3 then s.dropDictionary else s
  let s ← match status / 0x20 % 4 with
    | 0 => pure s
    | 1 => pure (s.restart s.properties)
    | _ => do pure (s.restart (← BitScan.ofOption (Properties.ofByte? (← BitScan.little 1))))
  symbolChunk s size packed

/-- chunks up to the byte that ends them; each takes a byte at least -/
def chunks : (fuel : Nat) → ChunkState → BitScan Bytes
  | 0, _ => failure
  | fuel + 1, s => do
    match ← BitScan.little 1 with
    | 0 => return s.history.out
    | 1 => chunks fuel (← plainChunk s.dropDictionary)
    | 2 => chunks fuel (← plainChunk s)
    | status => do
      BitScan.require (0x80 ≤ status)
      chunks fuel (← codedChunk status s)

/-- all chunks from here on -/
def decode : BitScan Bytes := do chunks (← BitScan.left) {}

end Baskets.Codec.Lzma
