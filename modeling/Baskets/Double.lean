/-!
# Doubles by their bits

A binary64 number is kept as its 64 bits: one sign bit, eleven exponent bits, 52 bits of fraction.
`Double.ofSingle` widens a binary32 number; every one of them is a binary64 number too, so nothing
is rounded, and the subnormal ones, whose leading bit may stand anywhere, become normal.  What is not
a number keeps its sign and the bits of its fraction, and becomes quiet if it was signalling.
-/

namespace Baskets.Double

/-- infinity or not a number -/
def isSpecial (bits : UInt64) : Bool := (bits.toNat >>> 52) % 0x800 == 0x7ff

def isNaN (bits : UInt64) : Bool := isSpecial bits && bits.toNat % 0x10000000000000 != 0

/-- the bits of the double of that sign, exponent field and fraction field -/
def ofFields (negative : Bool) (exponent fraction : Nat) : UInt64 :=
  UInt64.ofNat ((if negative then 0x8000000000000000 else 0) + (exponent <<< 52) + fraction)

/-- the bits of the double with the value of the binary32 number with these bits -/
def ofSingle (bits : Nat) : UInt64 :=
  let negative := bits.testBit 31
  let exponent := (bits >>> 23) % 0x100
  let fraction := bits % 0x800000
  if exponent = 0xff then
    -- the leading bit of the fraction tells the quiet from the signalling
    ofFields negative 0x7ff (if fraction = 0 then 0 else fraction <<< 29 ||| 1 <<< 51)
  else if exponent = 0 then
    if fraction = 0 then ofFields negative 0 0
    else
      -- the leading bit stands at `top`, and the number is `fraction * 2 ^ (-149)`
      let top := fraction.log2
      ofFields negative (1023 - 149 + top) ((fraction - (1 <<< top)) <<< (52 - top))
  else ofFields negative (1023 - 127 + exponent) (fraction <<< 29)

example : ofSingle 0x3fc00000 = 0x3ff8000000000000 := by decide

example : ofSingle 1 = 0x36a0000000000000 := by decide

example : ofSingle 0x7f800001 = 0x7ff8000020000000 := by decide

end Baskets.Double
