import Baskets.Bytes

/-!
# Checksums

Adler-32 is a pair of sums.  The cyclic checks are remainders of polynomials with coefficients 0 and
1: the register holds the highest coefficient in its least bit, starts with ones, and is inverted at
the end.
-/

namespace Baskets.Codec.Checksum

/-- Adler-32: the sum of the bytes and one, below the sum of all those sums -/
def adler32 (data : Bytes) : Nat :=
  let (a, b) := data.foldl (fun (a, b) byte =>
    let a := (a + byte.toNat) % 65521
    (a, (b + a) % 65521)) (1, 0)
  0x10000 * b + a

/-- some divisions by the polynomial, one bit each -/
def divide (polynomial : UInt64) : Nat → UInt64 → UInt64
  | 0, register => register
  | bits + 1, register =>
    let shifted := register >>> 1
    divide polynomial bits (if register &&& 1 = 1 then shifted ^^^ polynomial else shifted)

/-- the cyclic check of that polynomial, in as many bits as `ones` has -/
def cyclic (polynomial ones : UInt64) (data : Bytes) : UInt64 :=
  data.foldl (fun register byte => divide polynomial 8 (register ^^^ byte.toUInt64)) ones ^^^ ones

def crc32 (data : Bytes) : Nat := (cyclic 0xedb88320 0xffffffff data).toNat

def crc64 (data : Bytes) : Nat := (cyclic 0xc96c5795d7870f42 0xffffffffffffffff data).toNat

end Baskets.Codec.Checksum
