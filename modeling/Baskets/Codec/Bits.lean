import Baskets.Bytes

/-!
# Bits of compressed data

A `BitScan` reads forward: bits from the least of a byte on, and numbers with their least bit first.
It fails for good when the bytes end too early, so its result is optional and there is no position
to look at afterwards.

`BackwardBits` are read from the end: the last byte has a highest one bit that marks the end, and
the numbers before it are read from their highest bit on.  Beyond the first byte there are zeros;
how many of them were read is kept, since some readers notice the end of their data only by that.
-/

namespace Baskets.Codec

structure BitStream where
  data : Bytes
  /-- the position, counted in bits -/
  pos : Nat := 0

abbrev BitScan := StateT BitStream Option

namespace BitScan

/-- what the scan makes of the bytes -/
def eval {α : Type} (scan : BitScan α) (data : Bytes) : Option α :=
  (scan.run { data }).map (·.1)

/-- a number of some bits -/
def take (count : Nat) : BitScan Nat := do
  let s ← get
  if s.pos + count ≤ 8 * s.data.size then
    set { s with pos := s.pos + count }
    return s.data.bits s.pos count
  else failure

/-- a number of some bytes, the least first -/
def little (count : Nat) : BitScan Nat := take (8 * count)

/-- goes on to the start of a byte -/
def align : BitScan Unit := modify fun s => { s with pos := (s.pos + 7) / 8 * 8 }

/-- some bytes, from the start of the next one on -/
def bytes (count : Nat) : BitScan Bytes := do
  let s ← get
  let start := (s.pos + 7) / 8
  if start + count ≤ s.data.size then
    set { s with pos := 8 * (start + count) }
    return s.data.extract start (start + count)
  else failure

/-- the number of bits from here to the end -/
def left : BitScan Nat := do
  let s ← get
  return 8 * s.data.size - s.pos

/-- all bytes from the start of the next one on -/
def rest : BitScan Bytes := do bytes ((← left) / 8)

def atEnd : BitScan Bool := do return (← left) = 0

/-- fails unless the condition holds -/
def require (condition : Bool) : BitScan Unit := if condition then return else failure

/-- the value, if there is one -/
def ofOption {α : Type} : Option α → BitScan α
  | some a => return a
  | none => failure

end BitScan

/-! ## from the end -/

structure BackwardBits where
  data : Bytes
  /-- the number of bits not yet read, less than zero beyond the first byte -/
  left : Int

namespace BackwardBits

/-- the bits below the mark at the end -/
def ofBytes? (data : Bytes) : Option BackwardBits :=
  match data.back? with
  | some last =>
    if last = 0 then none
    else some { data, left := 8 * (data.size - 1 : Int) + last.toNat.log2 }
  | none => none

/-- a number of some bits, and the bits before them -/
def take (s : BackwardBits) (count : Nat) : Nat × BackwardBits :=
  let there := min count s.left.toNat
  let value := (s.data.bits (s.left.toNat - there) there) <<< (count - there)
  (value, { s with left := s.left - count })

end BackwardBits

/-- reads from the end -/
abbrev BackwardScan := StateM BackwardBits

def BackwardScan.take (count : Nat) : BackwardScan Nat := modifyGet fun s => s.take count

end Baskets.Codec
