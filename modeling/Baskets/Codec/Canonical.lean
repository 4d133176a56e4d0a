import Baskets.Codec.Bits

/-!
# Canonical prefix codes

A canonical code is given by the lengths of its words: shorter words come first, words of one length
in the order of their symbols, and each word is the next number after the one before it, with zeros
added when the length grows.  So a word is found by reading bits until the number lies among the
words of its length.
-/

namespace Baskets.Codec

structure Canonical where
  /-- how many words there are of each length, from length 1 on -/
  counts : List Nat
  /-- the symbols in the order of their words -/
  symbols : Array Nat

namespace Canonical

/-- the greatest length of a word -/
def maxLength : Nat := 15

/-- the symbols whose words have that length -/
def ofLength (lengths : List Nat) (length : Nat) : List Nat :=
  (lengths.zipIdx.filter fun (l, _) => l = length).map (·.2)

/-- the share of all words of the greatest length that begin with a word of the code, doubled -/
def share (counts : List Nat) : Nat := counts.foldl (fun total count => 2 * (total + count)) 0

/-- the code with words of those lengths, zero for a symbol without a word.  Every long word must
begin with one word of the code; only a code with at most one word may leave some out, if `lone` -/
def ofLengths? (lone : Bool) (lengths : List Nat) : Option Canonical :=
  let words := (List.range maxLength).map fun i => ofLength lengths (i + 1)
  let counts := words.map List.length
  let symbols := words.flatten.toArray
  if share counts = 1 <<< (maxLength + 1) ∨ (lone ∧ symbols.size ≤ 1) then
    some { counts, symbols }
  else none

/-- reads on from a number of one length less; `first` is the first word of the length and `index`
its place among all words -/
def scanFrom (symbols : Array Nat) : (counts : List Nat) → (word first index : Nat) → BitScan Nat
  | [], _, _, _ => failure
  | count :: counts, word, first, index => do
    let word := 2 * word + (← BitScan.take 1)
    if word < first + count then BitScan.ofOption symbols[index + (word - first)]?
    else scanFrom symbols counts word (2 * (first + count)) (index + count)

/-- reads one word -/
def scan (code : Canonical) : BitScan Nat := scanFrom code.symbols code.counts 0 0 0

end Canonical

end Baskets.Codec
