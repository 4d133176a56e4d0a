import Baskets.Bytes

/-!
# Range decoding

A range decoder holds an interval and a number in it.  Each bit splits the interval in the ratio of
the probability that its context has learnt, and the side on which the number lies is the bit; the
probability then moves towards what was seen by a 32nd.  Whenever the interval has lost its highest
byte, one byte of data is taken in.
-/

namespace Baskets.Codec.Lzma

structure RangeDecoder where
  data : Bytes
  /-- the next byte, and the end of the bytes that may be taken -/
  pos : Nat
  stop : Nat
  range : Nat
  code : Nat
  /-- for each context the chance of a zero, in 2048ths -/
  chances : Array Nat

abbrev RangeScan := StateT RangeDecoder Option

namespace RangeDecoder

/-- takes in a byte when the interval has become small -/
def normalize (s : RangeDecoder) : Option RangeDecoder :=
  if s.range < 0x1000000 then
    if s.pos < s.stop then
      let byte := s.data.getD s.pos 0
      some { s with
        pos := s.pos + 1
        range := 0x100 * s.range
        code := (0x100 * s.code + byte.toNat) % 0x100000000 }
    else none
  else some s

end RangeDecoder

namespace RangeScan

/-- begins with five bytes, the first of which has no meaning -/
def start : RangeScan Unit := fun s =>
  if s.pos + 5 ≤ s.stop then
    let code := Bytes.big (s.data.extract (s.pos + 1) (s.pos + 5))
    some ((), { s with pos := s.pos + 5, range := 0xffffffff, code })
  else none

/-- a bit in its context -/
def bit (context : Nat) : RangeScan Nat := fun s =>
  let chance := s.chances.getD context 0
  let bound := s.range / 0x800 * chance
  if s.code < bound then
    let learnt := chance + (0x800 - chance) / 0x20
    let s := { s with range := bound, chances := s.chances.setIfInBounds context learnt }
    s.normalize.map (0, ·)
  else
    let learnt := chance - chance / 0x20
    let s := { s with
      range := s.range - bound
      code := s.code - bound
      chances := s.chances.setIfInBounds context learnt }
    s.normalize.map (1, ·)

/-- a bit with even chances -/
def evenBit : RangeScan Nat := fun s =>
  let half := s.range / 2
  if s.code < half then { s with range := half }.normalize.map (0, ·)
  else { s with range := half, code := s.code - half }.normalize.map (1, ·)

/-- a number in bits with even chances, behind a number of higher bits -/
def evenBits : (count high : Nat) → RangeScan Nat
  | 0, high => return high
  | count + 1, high => do evenBits count (2 * high + (← evenBit))

/-- walks down a tree of contexts from a node, the root being 1 -/
def walk (contexts : Nat) : (depth node : Nat) → RangeScan Nat
  | 0, node => return node
  | depth + 1, node => do walk contexts depth (2 * node + (← bit (contexts + node)))

/-- a number whose bits choose the way through a tree, the highest first -/
def tree (contexts depth : Nat) : RangeScan Nat := do
  return (← walk contexts depth 1) - (1 <<< depth)

/-- the same with the least bit first -/
def reverseTree (contexts : Nat) : (depth node : Nat) → RangeScan Nat
  | 0, _ => return 0
  | depth + 1, node => do
    let b ← bit (contexts + node)
    return b + 2 * (← reverseTree contexts depth (2 * node + b))

end RangeScan

end Baskets.Codec.Lzma
