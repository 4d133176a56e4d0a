import Baskets.Codec.Bits

/-!
# Finite state codes

A finite state code is a table of cells.  The state is a cell; it stands for the symbol of the cell,
and the next state is the cell's base plus a number read from the end of the data.  A symbol with a
greater count has more cells and needs fewer bits.

The table is made from the counts of the symbols, which sum to its size.  A symbol with the mark for
a count below one takes a cell at the end, the other symbols are spread over the rest in steps of a
fixed width.
-/

namespace Baskets.Codec.Zstandard

structure Cell where
  symbol : Nat
  /-- how many bits are read for the next state -/
  bits : Nat
  /-- the least next state -/
  base : Nat
deriving DecidableEq, Repr, Inhabited

structure Entropy where
  /-- the number of bits of the first state -/
  log : Nat
  cells : Array Cell
deriving Repr

namespace Entropy

/-- the code of one symbol, which takes no bits -/
def single (symbol : Nat) : Entropy := { log := 0, cells := #[⟨symbol, 0, 0⟩] }

/-- the symbols of the cells, given the counts; `none` marks a count below one -/
def spread (log : Nat) (counts : List (Option Nat)) : List Nat :=
  let size := 1 <<< log
  let numbered := counts.zipIdx
  let rare := (numbered.filter fun (count, _) => count.isNone).map (·.2)
  let common := numbered.flatMap fun (count, symbol) => List.replicate (count.getD 0) symbol
  let places := ((List.range size).map fun i => i * (size / 2 + size / 8 + 3) % size).filter
    fun place => place < size - rare.length
  let placed := (places.zip common).foldl
    (fun cells (place, symbol) => cells.setIfInBounds place symbol)
    (Array.replicate (size - rare.length) 0)
  placed.toList ++ rare.reverse

/-- the cells for those symbols; `next` is the number of the next state of each symbol, which starts
at its count -/
def cellsOf (log : Nat) : List Nat → (next : Array Nat) → List Cell
  | [], _ => []
  | symbol :: symbols, next =>
    let state := next.getD symbol 1
    let bits := log - state.log2
    { symbol, bits, base := (state <<< bits) - (1 <<< log) } ::
      cellsOf log symbols (next.setIfInBounds symbol (state + 1))

/-- the code of symbols with those counts, which sum to the size of a table of that logarithm -/
def ofCounts (log : Nat) (counts : List (Option Nat)) : Entropy :=
  let next := (counts.map fun count => count.getD 1).toArray
  { log, cells := (cellsOf log (spread log counts) next).toArray }

/-! ## the counts as they are sent -/

/-- reads how many symbols with count zero follow; the greatest number goes on -/
def zeros : (fuel : Nat) → BitScan Nat
  | 0 => failure
  | fuel + 1 => do
    let number ← BitScan.take 2
    if number = 3 then return 3 + (← zeros fuel) else return number

/-- reads a number up to `most`, in one bit less when it is small enough -/
def upTo (most : Nat) : BitScan Nat := do
  let width := most.log2 + 1
  let value ← BitScan.take width
  let half := 1 <<< (width - 1)
  let spare := (1 <<< width) - 1 - most
  if value % half < spare then
    modify fun s => { s with pos := s.pos - 1 }
    return value % half
  else if half ≤ value then return value - spare
  else return value

/-- reads counts that sum to `sum`; a number is the count and one, and zero marks a count below
one -/
def counts : (fuel sum : Nat) → BitScan (List (Option Nat))
  | _, 0 => return []
  | 0, _ => failure
  | fuel + 1, sum => do
    match ← upTo (sum + 1) with
    | 0 => return none :: (← counts fuel (sum - 1))
    | 1 => do
      let more ← zeros fuel
      return List.replicate (more + 1) (some 0) ++ (← counts fuel sum)
    | count + 1 => return some count :: (← counts fuel (sum - count))

/-- reads a code, whose table has a logarithm up to `maxLog`, of symbols up to `maxSymbol` -/
def scan (maxLog maxSymbol : Nat) : BitScan Entropy := do
  let log := 5 + (← BitScan.take 4)
  BitScan.require (log ≤ maxLog)
  let counts ← counts (← BitScan.left) (1 <<< log)
  BitScan.require (counts.length ≤ maxSymbol + 1)
  BitScan.align
  return ofCounts log counts

/-! ## states -/

def first (code : Entropy) : BackwardScan Nat := BackwardScan.take code.log

def cell (code : Entropy) (state : Nat) : Cell := code.cells.getD state default

def symbol (code : Entropy) (state : Nat) : Nat := (code.cell state).symbol

def next (code : Entropy) (state : Nat) : BackwardScan Nat := do
  let cell := code.cell state
  return cell.base + (← BackwardScan.take cell.bits)

end Entropy

end Baskets.Codec.Zstandard
