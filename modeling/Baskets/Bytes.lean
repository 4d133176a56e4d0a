/-!
# Byte strings and the numbers in them

Everything on disk is a number written in a fixed count of bytes: most significant byte first in
records and objects (`Bytes.big`), least significant first in the headers of compressed blocks and
in what is hashed (`Bytes.little`).  `littleOf` writes what `little` reads.  Compressed blocks count
in bits, which stand in a byte from the least on (`Bytes.bits`).
-/

namespace Baskets

abbrev Bytes := Array UInt8

namespace Bytes

/-- the number whose digits in base 256 are the bytes, most significant first -/
def big (bytes : Bytes) : Nat :=
  bytes.foldl (fun n b => n * 256 + b.toNat) 0

/-- the same read as a two's complement number -/
def bigSigned (bytes : Bytes) : Int :=
  (bytes.big : Int).bmod (1 <<< (8 * bytes.size))

/-- the number whose digits in base 256 are the bytes, least significant first -/
def little (bytes : Bytes) : Nat :=
  bytes.foldr (fun b n => n * 256 + b.toNat) 0

/-- the number whose binary digits are the `count` bits from bit `start` on, the least first; in a
byte the bits come from the least on, too -/
def bits (bytes : Bytes) (start count : Nat) : Nat :=
  (little (bytes.extract (start / 8) ((start + count + 7) / 8)) >>> (start % 8)) % (1 <<< count)

/-- the `count` least digits of `n` in base 256, least significant first -/
def littleOf : Nat → Nat → List UInt8
  | 0, _ => []
  | count + 1, n => n.toUInt8 :: littleOf count (n / 256)

@[simp] theorem length_littleOf (count n : Nat) : (littleOf count n).length = count := by
  induction count generalizing n with
  | zero => rfl
  | succ count ih => simp [littleOf, ih]

end Bytes

end Baskets
