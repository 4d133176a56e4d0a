import Baskets.Decimal.Shortest
import Baskets.Double
import Baskets.Json

/-!
# Numbers in JSON text

Reading: a numeral without fraction and exponent that fits in 64 bits is whole.  Of any other the
digits are gathered into one number as long as that fits in 64 bits; later digits before the point
only raise the exponent, and behind the point all are dropped from the first that does not fit on.
The gathered number becomes a double and is then multiplied or divided once by a power of ten
(several times below `1e-308`), so the result can be off in the last place.  A double out of range
is refused.

Writing: doubles get the fewest digits that round to them, a point and at least one digit behind
it, or an exponent when the first digit stands for less than `1e-5` or more than `1e15`.
-/

namespace Baskets.Json

/-- a numeral cut into its parts -/
structure Numeral where
  negative : Bool
  whole : List Char
  /-- the digits behind the point, if there is one -/
  fraction : Option (List Char)
  exponent : Option Int
deriving Repr

def digitsValue (digits : List Char) : Nat :=
  digits.foldl (fun n c => n * 10 + (c.toNat - '0'.toNat)) 0

/-- reads the exponent behind its mark: a sign and at least one digit -/
def exponentOf? (cs : List Char) : Option Int :=
  let (negative, digits) := match cs with
    | '+' :: rest => (false, rest)
    | '-' :: rest => (true, rest)
    | rest => (false, rest)
  if digits.isEmpty || !digits.all Char.isDigit then none
  else some (if negative then -(digitsValue digits : Int) else digitsValue digits)

/-- the parts of a numeral, if it is well-formed -/
def Numeral.ofChars? (cs : List Char) : Option Numeral :=
  let (negative, cs) := match cs with
    | '-' :: rest => (true, rest)
    | rest => (false, rest)
  let whole := cs.takeWhile Char.isDigit
  let rest := cs.dropWhile Char.isDigit
  if whole.isEmpty || (whole.head? = some '0' && whole.length ≠ 1) then none
  else
    let behind := match rest with
      | '.' :: rest => (some (rest.takeWhile Char.isDigit), rest.dropWhile Char.isDigit)
      | rest => (none, rest)
    if behind.1 = some [] then none
    else match behind.2 with
      | [] => some ⟨negative, whole, behind.1, none⟩
      | mark :: rest =>
        if mark = 'e' || mark = 'E' then
          (exponentOf? rest).map fun exponent => ⟨negative, whole, behind.1, some exponent⟩
        else none

/-- digits gathered so far, and the power of ten of the last of them -/
structure Gathered where
  value : Nat := 0
  exponent : Int := 0
  /-- no further digit goes in -/
  full : Bool := false

/-- takes in a digit before the point -/
def Gathered.pushWhole (g : Gathered) (c : Char) : Gathered :=
  let next := g.value * 10 + (c.toNat - '0'.toNat)
  if g.full then { g with exponent := g.exponent + 1 }
  else if next < 0x10000000000000000 then { g with value := next }
  else { g with exponent := g.exponent + 1, full := true }

/-- takes in a digit behind the point -/
def Gathered.pushFraction (g : Gathered) (c : Char) : Gathered :=
  let next := g.value * 10 + (c.toNat - '0'.toNat)
  if g.full then g
  else if next < 0x10000000000000000 then { g with value := next, exponent := g.exponent - 1 }
  else { g with full := true }

/-- the double next to a power of ten -/
def tenTo (n : Nat) : Float := Float.ofScientific 1 false n

/-- `x` times a power of ten, by one factor at a time; the count bounds the divisions -/
def scaleBy : Nat → Float → Int → Option Float
  | 0, _, _ => some 0
  | count + 1, x, exponent =>
    if exponent.natAbs ≤ 308 then
      let scaled := if 0 ≤ exponent then x * tenTo exponent.natAbs else x / tenTo exponent.natAbs
      if scaled.isInf then none else some scaled
    else if x == 0 then some x
    else if 0 ≤ exponent then none
    else scaleBy count (x / tenTo 308) (exponent + 308)

/-- the double nearest to what the digits say, or nearly so -/
def Numeral.double? (n : Numeral) : Option UInt64 :=
  let g := n.whole.foldl Gathered.pushWhole {}
  let g := (n.fraction.getD []).foldl Gathered.pushFraction { g with full := false }
  -- three divisions by `1e308` make any 64-bit number zero
  let magnitude := scaleBy 8 g.value.toUInt64.toFloat (g.exponent + n.exponent.getD 0)
  magnitude.map fun x => (if n.negative then -x else x).toBits

/-- the value of a numeral -/
def Numeral.value? (n : Numeral) : Option Json :=
  let magnitude := digitsValue n.whole
  let isWhole := n.fraction.isNone && n.exponent.isNone
  if isWhole && !n.negative && magnitude < 0x10000000000000000 then some (.whole magnitude)
  else if isWhole && n.negative && 0 < magnitude && magnitude ≤ 0x8000000000000000 then
    some (.whole (-(magnitude : Int)))
  else n.double?.map .double

/-- reads a number -/
def numberOf? (cs : List Char) : Option Json := (Numeral.ofChars? cs).bind Numeral.value?

/-! ## writing -/

/-- digits with a point behind the first `places` of them -/
def pointed (digits : String) (places : Nat) : String :=
  if digits.length ≤ places then
    digits ++ String.ofList (List.replicate (places - digits.length) '0') ++ ".0"
  else (digits.take places).toString ++ "." ++ (digits.drop places).toString

/-- an exponent with its sign and at least two digits -/
def exponentText (n : Int) : String :=
  let digits := toString n.natAbs
  "e" ++ (if n < 0 then "-" else "+") ++ (if digits.length = 1 then "0" ++ digits else digits)

/-- a positive double -/
def magnitudeText (bits : UInt64) : String :=
  let s := (Decimal.shortest bits).trim
  let digits := toString s.digits
  let leading := s.exponent + digits.length - 1
  if 0 ≤ leading ∧ leading ≤ 15 then pointed digits (leading.toNat + 1)
  else if -5 ≤ leading ∧ leading < 0 then
    "0." ++ String.ofList (List.replicate ((-leading).toNat - 1) '0') ++ digits
  else if digits.length = 1 then digits ++ exponentText leading
  else pointed digits 1 ++ exponentText leading

/-- a finite double; there are no others in JSON, and any would become null -/
def doubleText (bits : UInt64) : String :=
  if Double.isSpecial bits then "null"
  else
    let magnitude := UInt64.ofNat (bits.toNat % 0x8000000000000000)
    (if bits = magnitude then "" else "-") ++
      (if magnitude = 0 then "0.0" else magnitudeText magnitude)

end Baskets.Json
