import Baskets.Codec.Window
import Baskets.Codec.Zstandard.Weights

/-!
# Compressed blocks

A compressed block has a section of literals and a section of sequences.  A sequence copies some
literals and then repeats bytes from some distance; what is left of the literals ends the block.
Each of the three numbers of a sequence has a finite state code for the size class and extra bits
for the rest.  Codes and the last three distances carry over from block to block (`Carried`).
-/

namespace Baskets.Codec.Zstandard

/-- what blocks of a frame take over from the blocks before -/
structure Carried where
  literals : Option PrefixCode := none
  literalLengths : Option Entropy := none
  distances : Option Entropy := none
  matchLengths : Option Entropy := none
  /-- the last distances, the newest first -/
  recent : Nat × Nat × Nat := (1, 4, 8)

/-! ## literals -/

/-- the parts of the bytes at the given ends, and what comes after the last one -/
def split (data : Bytes) : (start : Nat) → List Nat → Option (List Bytes)
  | start, [] => some [data.extract start data.size]
  | start, size :: sizes =>
    if start + size ≤ data.size then
      (split data (start + size) sizes).map (data.extract start (start + size) :: ·)
    else none

/-- literals in one stream, or in four after the sizes of the first three -/
def streams (code : PrefixCode) (four : Bool) (data : Bytes) : Option Bytes :=
  if four then do
    if data.size < 6 then none
    else
      let sizes := [0, 16, 32].map fun start => data.bits start 16
      let parts ← split data 6 sizes
      let decoded ← parts.mapM code.decode?
      return decoded.foldl (· ++ ·) #[]
  else code.decode? data

/-- the number of plain literals, in 5, 12 or 20 bits -/
def plainSize : BitScan Nat := do
  let long ← BitScan.take 1
  if long = 0 then BitScan.take 5
  else
    let longer ← BitScan.take 1
    BitScan.take (if longer = 0 then 12 else 20)

/-- literals as they are, or one of them many times -/
def plainLiterals (repeated : Bool) : BitScan Bytes := do
  let size ← plainSize
  if repeated then return Array.replicate size (← BitScan.little 1).toUInt8 else BitScan.bytes size

/-- literals in a prefix code, either sent with them or carried over -/
def codedLiterals (carried : Option PrefixCode) (sent : Bool) : BitScan (Bytes × PrefixCode) := do
  let format ← BitScan.take 2
  let width := if format ≤ 1 then 10 else if format = 2 then 14 else 18
  let size ← BitScan.take width
  let data ← BitScan.bytes (← BitScan.take width)
  let inner : BitScan (Bytes × PrefixCode) := do
    let code ← if sent then PrefixCode.scan else BitScan.ofOption carried
    let out ← BitScan.ofOption (streams code (format ≠ 0) (← BitScan.rest))
    BitScan.require (out.size = size)
    return (out, code)
  BitScan.ofOption (inner.eval data)

def literals (carried : Carried) : BitScan (Bytes × Carried) := do
  match ← BitScan.take 2 with
  | 0 => return (← plainLiterals false, carried)
  | 1 => return (← plainLiterals true, carried)
  | kind =>
    let (out, code) ← codedLiterals carried.literals (kind = 2)
    return (out, { carried with literals := some code })

/-! ## size classes -/

/-- the least length and the number of extra bits of each class of literal lengths -/
def literalLengthClasses : Array (Nat × Nat) :=
  ((List.range 16).map fun length => (length, 0)).toArray ++ #[
    (16, 1), (18, 1), (20, 1), (22, 1), (24, 2), (28, 2), (32, 3), (40, 3), (48, 4), (64, 6),
    (128, 7), (256, 8), (512, 9), (1024, 10), (2048, 11), (4096, 12), (8192, 13), (16384, 14),
    (32768, 15), (65536, 16)]

/-- the least length and the number of extra bits of each class of lengths of repetitions -/
def matchLengthClasses : Array (Nat × Nat) :=
  ((List.range 32).map fun length => (length + 3, 0)).toArray ++ #[
    (35, 1), (37, 1), (39, 1), (41, 1), (43, 2), (47, 2), (51, 3), (59, 3), (67, 4), (83, 4),
    (99, 5), (131, 7), (259, 8), (515, 9), (1027, 10), (2051, 11), (4099, 12), (8195, 13),
    (16387, 14), (32771, 15), (65539, 16)]

/-- counts in which zero marks a count below one -/
def marked (counts : List Nat) : List (Option Nat) :=
  counts.map fun count => if count = 0 then none else some count

def literalLengthCounts : List (Option Nat) := marked
  [4, 3, 2, 2, 2, 2, 2, 2, 2, 2, 2, 2, 2, 1, 1, 1, 2, 2, 2, 2, 2, 2, 2, 2, 2, 3, 2, 1, 1, 1, 1, 1,
    0, 0, 0, 0]

def distanceCounts : List (Option Nat) := marked
  [1, 1, 1, 1, 1, 1, 2, 2, 2, 1, 1, 1, 1, 1, 1, 1, 1, 1, 1, 1, 1, 1, 1, 1, 0, 0, 0, 0, 0]

def matchLengthCounts : List (Option Nat) := marked
  [1, 4, 3, 2, 2, 2, 2, 2, 2, 1, 1, 1, 1, 1, 1, 1, 1, 1, 1, 1, 1, 1, 1, 1, 1, 1, 1, 1, 1, 1, 1, 1,
    1, 1, 1, 1, 1, 1, 1, 1, 1, 1, 1, 1, 1, 1, 0, 0, 0, 0, 0, 0, 0]

/-- what is known beforehand about the code of one of the three numbers -/
structure ClassCode where
  /-- the size of the usual table, and its counts -/
  usualLog : Nat
  usualCounts : List (Option Nat)
  maxLog : Nat
  maxSymbol : Nat

def literalLengthCode : ClassCode := ⟨6, literalLengthCounts, 9, 35⟩

def distanceCode : ClassCode := ⟨5, distanceCounts, 8, 31⟩

def matchLengthCode : ClassCode := ⟨6, matchLengthCounts, 9, 52⟩

/-- the code of a number: the usual one, that of one symbol, one sent here, or the one before -/
def ClassCode.scan (known : ClassCode) (carried : Option Entropy) : Nat → BitScan Entropy
  | 0 => return Entropy.ofCounts known.usualLog known.usualCounts
  | 1 => do
    let symbol ← BitScan.little 1
    BitScan.require (symbol ≤ known.maxSymbol)
    return Entropy.single symbol
  | 2 => Entropy.scan known.maxLog known.maxSymbol
  | _ => BitScan.ofOption carried

/-! ## sequences -/

structure Sequence where
  literalLength : Nat
  matchLength : Nat
  /-- up to 3 the name of a recent distance, above it the distance and 3 -/
  distance : Nat
deriving Repr

/-- the three codes of a block -/
structure Codes where
  literalLengths : Entropy
  distances : Entropy
  matchLengths : Entropy

/-- the sequences from three states on; the states move on only between sequences, and the data
must not end too early -/
def sequencesFrom (codes : Codes) : (count : Nat) → (literalLength distance matchLength : Nat) →
    StateT BackwardBits Option (List Sequence)
  | 0, _, _, _ => return []
  | count + 1, literalLength, distance, matchLength => do
    let (literalLeast, literalBits) ←
      (literalLengthClasses[codes.literalLengths.symbol literalLength]? : Option _)
    let (matchLeast, matchBits) ←
      (matchLengthClasses[codes.matchLengths.symbol matchLength]? : Option _)
    let power := codes.distances.symbol distance
    let distanceExtra ← take power
    let matchExtra ← take matchBits
    let literalExtra ← take literalBits
    let sequence : Sequence := {
      literalLength := literalLeast + literalExtra
      matchLength := matchLeast + matchExtra
      distance := (1 <<< power) + distanceExtra }
    if count = 0 then
      check
      return [sequence]
    else
      let literalLength ← step (codes.literalLengths.next literalLength)
      let matchLength ← step (codes.matchLengths.next matchLength)
      let distance ← step (codes.distances.next distance)
      check
      return sequence :: (← sequencesFrom codes count literalLength distance matchLength)
where
  step {α : Type} (scan : BackwardScan α) : StateT BackwardBits Option α :=
    fun s => some (scan.run s)
  take (count : Nat) : StateT BackwardBits Option Nat := step (BackwardScan.take count)
  check : StateT BackwardBits Option Unit := do if (← get).left < 0 then failure

/-- all sequences of a block, which take all bits -/
def sequencesIn? (codes : Codes) (count : Nat) (data : Bytes) : Option (List Sequence) := do
  let bits ← BackwardBits.ofBytes? data
  let states : BackwardScan (Nat × Nat × Nat) := do
    return (← codes.literalLengths.first, ← codes.distances.first, ← codes.matchLengths.first)
  let ((literalLength, distance, matchLength), bits) := states.run bits
  let (sequences, rest) ←
    (sequencesFrom codes count literalLength distance matchLength).run bits
  if rest.left = 0 then some sequences else none

/-- the number of sequences, in one to three bytes -/
def sequenceCount : BitScan Nat := do
  let first ← BitScan.little 1
  if first < 128 then return first
  else if first < 255 then return (first - 128) * 256 + (← BitScan.little 1)
  else return (← BitScan.little 2) + 32512

def sequences (carried : Carried) : BitScan (List Sequence × Carried) := do
  let count ← sequenceCount
  if count = 0 then
    BitScan.require (← BitScan.atEnd)
    return ([], carried)
  let modes ← BitScan.little 1
  let literalLengths ← literalLengthCode.scan carried.literalLengths (modes / 64)
  let distances ← distanceCode.scan carried.distances (modes / 16 % 4)
  let matchLengths ← matchLengthCode.scan carried.matchLengths (modes / 4 % 4)
  let carried := { carried with
    literalLengths := some literalLengths
    distances := some distances
    matchLengths := some matchLengths }
  let data ← BitScan.rest
  let list ← BitScan.ofOption
    (sequencesIn? { literalLengths, distances, matchLengths } count data)
  return (list, carried)

/-! ## carrying out -/

/-- the distance that is meant, and the recent ones after it; without literals in between the first
recent distance would only prolong the last repetition, so the names mean the others -/
def distanceOf (recent : Nat × Nat × Nat) (sequence : Sequence) : Nat × Nat × Nat × Nat :=
  let (one, two, three) := recent
  let name := if sequence.literalLength = 0 then sequence.distance + 1 else sequence.distance
  if sequence.distance > 3 then (sequence.distance - 3, sequence.distance - 3, one, two)
  else match name with
    | 1 => (one, one, two, three)
    | 2 => (two, two, one, three)
    | 3 => (three, three, one, two)
    | _ => (one - 1, one - 1, one, two)

/-- carries out the sequences; no distance reaches back before `floor` -/
def execute (literals : Bytes) (floor : Nat) : List Sequence → (used : Nat) →
    Nat × Nat × Nat → Bytes → Option (Bytes × (Nat × Nat × Nat))
  | [], used, recent, out => some (out ++ literals.extract used literals.size, recent)
  | sequence :: rest, used, recent, out =>
    let stop := used + sequence.literalLength
    if literals.size < stop then none
    else
      let out := out ++ literals.extract used stop
      let (distance, recent) := distanceOf recent sequence
      if distance = 0 ∨ out.size < floor + distance then none
      else execute literals floor rest stop recent (copyBack sequence.matchLength distance out)

/-- a compressed block behind some output -/
def block (carried : Carried) (floor : Nat) (out : Bytes) : BitScan (Bytes × Carried) := do
  let (literals, carried) ← literals carried
  let (sequences, carried) ← sequences carried
  let (out, recent) ← BitScan.ofOption (execute literals floor sequences 0 carried.recent out)
  return (out, { carried with recent })

end Baskets.Codec.Zstandard
