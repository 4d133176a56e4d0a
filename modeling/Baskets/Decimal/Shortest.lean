/-!
# The shortest decimal of a double

A finite positive double is `m * 2 ^ q`, and the numbers that round to it fill the interval between
the midpoints to its two neighbours; the midpoints belong to it when `m` is even.
`Decimal.shortest` looks at the decimals with one, two, … seventeen digits of the right size, takes
the first count of digits at which one of the two decimals next to the double lies in the interval,
and the nearer of them when both do.  Seventeen digits always suffice.

All comparisons are between whole numbers: the double, its two bounds and the unit of the last digit
are written over one common denominator.
-/

namespace Baskets.Decimal

/-- the number `digits * 10 ^ exponent` -/
structure Scientific where
  digits : Nat
  exponent : Int
deriving DecidableEq, Repr

/-- a positive double and the numbers that round to it, as numerators over one denominator -/
structure Cell where
  low : Nat
  center : Nat
  high : Nat
  denominator : Nat
  /-- whether the bounds themselves round to the center -/
  closed : Bool

/-- the cell of the double with these bits, the sign left out -/
def Cell.ofBits (bits : UInt64) : Cell :=
  let exponent := (bits.toNat >>> 52) % 0x800
  let fraction := bits.toNat % 0x10000000000000
  let m := if exponent = 0 then fraction else 0x10000000000000 + fraction
  -- the value is `4 * m * 2 ^ (e - 1077)`; below a power of two the gap is half as wide
  let e := max exponent 1
  let below := if fraction = 0 && 1 < exponent then 1 else 2
  let scale := 1 <<< (e - 1077)
  { low := (4 * m - below) * scale
    center := 4 * m * scale
    high := (4 * m + 2) * scale
    denominator := 1 <<< (1077 - e)
    closed := m % 2 = 0 }

/-- whether the decimal `digits` over `unit` lies in the cell; `unit` is a numerator over the
denominator of the cell times `scale` -/
def Cell.holds (cell : Cell) (scale value : Nat) : Bool :=
  if cell.closed then cell.low * scale ≤ value && value ≤ cell.high * scale
  else cell.low * scale < value && value < cell.high * scale

/-- the power of ten in the first digit of the center -/
def Cell.leading (cell : Cell) : Int :=
  if cell.denominator ≤ cell.center then
    ((Nat.toDigits 10 (cell.center / cell.denominator)).length : Int) - 1
  else
    match (List.range 400).find? fun k => cell.denominator ≤ cell.center * Nat.pow 10 (k + 1) with
    | some k => -((k : Int) + 1)
    | none => 0

/-- the best decimal with its last digit at the power `last` of ten, if one lies in the cell -/
def Cell.at? (cell : Cell) (last : Int) : Option Scientific :=
  -- over the common denominator the center is `center * scale` and the last digit `unit`
  let scale := Nat.pow 10 (-last).toNat
  let unit := cell.denominator * Nat.pow 10 last.toNat
  let center := cell.center * scale
  let down := center / unit
  let up := down + 1
  let downIn := cell.holds scale (down * unit)
  let upIn := cell.holds scale (up * unit)
  if downIn && upIn then
    let toDown := center - down * unit
    let toUp := up * unit - center
    -- of two equally near ones the even one
    let chosen := if toDown < toUp || toDown = toUp && down % 2 = 0 then down else up
    some ⟨chosen, last⟩
  else if downIn then some ⟨down, last⟩
  else if upIn then some ⟨up, last⟩
  else none

/-- the shortest decimal that rounds to the positive double with these bits -/
def shortest (bits : UInt64) : Scientific :=
  let cell := Cell.ofBits bits
  let leading := cell.leading
  ((List.range 17).findSome? fun (k : Nat) => cell.at? (leading - k)).getD ⟨0, 0⟩

/-- the same number without zeros at the end of its digits -/
def Scientific.trim (s : Scientific) : Scientific :=
  let zeros := (Nat.toDigits 10 s.digits).reverse.takeWhile (· = '0') |>.length
  if s.digits = 0 then s else ⟨s.digits / Nat.pow 10 zeros, s.exponent + zeros⟩

example : shortest 0x3ff8000000000000 = ⟨15, -1⟩ := by decide +kernel

example : shortest 1 = ⟨5, -324⟩ := by decide +kernel

end Baskets.Decimal
