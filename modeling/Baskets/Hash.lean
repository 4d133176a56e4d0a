import Baskets.Bytes

/-!
# Hash values

`Hash.value` is SipHash with one round for each word and three at the end, under the key zero, of a
byte string.  What is hashed is written out first, as a list of bytes, by the functions of
`Hash.Form`: numbers in a fixed count of bytes, texts ended by a byte that no text contains, lists
after their length.  So questions about collisions split into two, one about these byte strings and
one about the function itself.
-/

namespace Baskets.Hash

/-- the four words of the state -/
structure State where
  v0 : UInt64
  v1 : UInt64
  v2 : UInt64
  v3 : UInt64

/-- the state for the key zero -/
def State.start : State :=
  ⟨0x736f6d6570736575, 0x646f72616e646f6d, 0x6c7967656e657261, 0x7465646279746573⟩

def rotate (x : UInt64) (n : UInt64) : UInt64 := (x <<< n) ||| (x >>> (64 - n))

/-- one mixing round -/
def State.round (s : State) : State :=
  let v0 := s.v0 + s.v1
  let v1 := rotate s.v1 13 ^^^ v0
  let v0 := rotate v0 32
  let v2 := s.v2 + s.v3
  let v3 := rotate s.v3 16 ^^^ v2
  let v0 := v0 + v3
  let v3 := rotate v3 21 ^^^ v0
  let v2 := v2 + v1
  let v1 := rotate v1 17 ^^^ v2
  ⟨v0, v1, rotate v2 32, v3⟩

/-- takes one word in -/
def State.absorb (s : State) (word : UInt64) : State :=
  let s := { s with v3 := s.v3 ^^^ word }.round
  { s with v0 := s.v0 ^^^ word }

def State.finish (s : State) : UInt64 :=
  let s := { s with v2 := s.v2 ^^^ 0xff }.round.round.round
  s.v0 ^^^ s.v1 ^^^ s.v2 ^^^ s.v3

def word (bytes : List UInt8) : UInt64 := UInt64.ofNat (Bytes.little bytes.toArray)

/-- takes the words of eight bytes in, and at last the rest under the length of the whole -/
def absorbAll (length : Nat) (s : State) (bytes : List UInt8) : State :=
  if 8 ≤ bytes.length then absorbAll length (s.absorb (word (bytes.take 8))) (bytes.drop 8)
  else s.absorb (word (bytes ++ List.replicate (7 - bytes.length) 0 ++ [length.toUInt8]))
termination_by bytes.length
decreasing_by simp; omega

/-- the hash value of a byte string -/
def value (bytes : List UInt8) : UInt64 := (absorbAll bytes.length .start bytes).finish

namespace Form

/-- a size, a count or the number of a case -/
def size (n : Nat) : List UInt8 := Bytes.littleOf 8 n

/-- text, and the byte that ends it -/
def text (s : String) : List UInt8 := s.toUTF8.toList ++ [0xff]

/-- a list after its length -/
def list {α : Type} (item : α → List UInt8) (items : List α) : List UInt8 :=
  size items.length ++ items.flatMap item

end Form

end Baskets.Hash
