import Baskets.Codec.Zstandard.Entropy

/-!
# Prefix codes by weights

The literals of a block are in a prefix code.  Each weight has twice the cells of the one below it,
and weight 1 has one cell, in a table whose size is a power of two; the weight of the last symbol is
not sent, because it fills up the table.  The cells stand in the order of the weights, then of the
symbols, and the cell number is the next bits of the data, as many as the longest word has.
-/

namespace Baskets.Codec.Zstandard

structure PrefixCode where
  /-- the length of the longest word -/
  log : Nat
  /-- for each cell, the symbol and the length of its word -/
  cells : Array (UInt8 × Nat)
deriving Repr

namespace PrefixCode

def maxLog : Nat := 11

/-- the number of cells of a symbol -/
def cellCount (weight : Nat) : Nat := if weight = 0 then 0 else 1 <<< (weight - 1)

/-- the cells of the symbols of one weight -/
def cellsOf (log : Nat) (weights : List Nat) (weight : Nat) : List (UInt8 × Nat) :=
  (weights.zipIdx.filter fun (w, _) => w = weight).flatMap fun (_, symbol) =>
    List.replicate (cellCount weight) (symbol.toUInt8, log + 1 - weight)

/-- the code of symbols with those weights and of one more -/
def ofWeights? (weights : List Nat) : Option PrefixCode :=
  let sum := (weights.map cellCount).foldl (· + ·) 0
  let log := sum.log2 + 1
  let gap := (1 <<< log) - sum
  let last := gap.log2 + 1
  if sum = 0 ∨ maxLog < log ∨ weights.any (maxLog < ·) ∨ 255 < weights.length then none
  else if 1 <<< gap.log2 = gap then
    some {
      log
      cells := ((List.range log).flatMap fun i => cellsOf log (weights ++ [last]) (i + 1)).toArray }
  else none

/-! ## the weights as they are sent -/

/-- weights in turn from two states, up to the end of the data; then the other state has one more -/
def inTurn (code : Entropy) : (fuel state other : Nat) → BackwardScan (List Nat)
  | 0, _, _ => return []
  | fuel + 1, state, other => do
    let state' ← code.next state
    let rest ←
      if (← get).left < 0 then return [code.symbol state, code.symbol other]
      else (code.symbol state :: ·) <$> inTurn code fuel other state'
    return rest

/-- weights in a finite state code -/
def codedWeights : BitScan (List Nat) := do
  let code ← Entropy.scan 20 255
  let bits ← BitScan.ofOption (BackwardBits.ofBytes? (← BitScan.rest))
  let weights : BackwardScan (List Nat) := do
    let one ← code.first
    let two ← code.first
    inTurn code 256 one two
  return (weights.run bits).1

/-- weights in half bytes, the first in the greater half -/
def plainWeights (count : Nat) : BitScan (List Nat) := do
  let bytes ← BitScan.bytes ((count + 1) / 2)
  return (bytes.toList.flatMap fun byte => [byte.toNat / 16, byte.toNat % 16]).take count

/-- reads a code -/
def scan : BitScan PrefixCode := do
  let size ← BitScan.little 1
  let weights ←
    if size < 128 then do BitScan.ofOption (codedWeights.eval (← BitScan.bytes size))
    else plainWeights (size - 127)
  BitScan.ofOption (ofWeights? weights)

/-! ## symbols -/

/-- the symbols from a state on, as long as there are bits for the state -/
def symbols (code : PrefixCode) : (fuel state : Nat) → Bytes → BackwardScan Bytes
  | 0, _, out => return out
  | fuel + 1, state, out => do
    if (← get).left ≤ -(code.log : Int) then return out
    else
      let (symbol, length) := code.cells.getD state (0, 1)
      let low ← BackwardScan.take length
      symbols code fuel ((state <<< length) % (1 <<< code.log) + low) (out.push symbol)

/-- all symbols of a stream, which must end with the data -/
def decode? (code : PrefixCode) (data : Bytes) : Option Bytes := do
  let bits ← BackwardBits.ofBytes? data
  let all : BackwardScan Bytes := do
    let state ← BackwardScan.take code.log
    symbols code (8 * data.size + 1) state #[]
  let (out, rest) := all.run bits
  if rest.left = -(code.log : Int) then some out else none

end PrefixCode

end Baskets.Codec.Zstandard
