import Baskets.Codec.Lzma.Range
import Baskets.Codec.Window

/-!
# LZMA

Range-coded literals and repetitions.  What comes next is coded in the context of a *phase*, which
remembers the kinds of the last few symbols, and of the position.  A literal is coded in the context
of the byte before it, and right after a repetition also of the byte that the repetition would have
gone on with.  A repetition has a length and either one of the last four distances or a new one.
-/

namespace Baskets.Codec.Lzma

/-- how many bits of the byte before and of the position make up a context -/
structure Properties where
  literalContext : Nat := 0
  literalPosition : Nat := 0
  position : Nat := 0
deriving DecidableEq, Repr

/-- the properties in a byte -/
def Properties.ofByte? (byte : Nat) : Option Properties :=
  let literalContext := byte % 9
  let literalPosition := byte / 9 % 5
  if byte < 225 ∧ literalContext + literalPosition ≤ 4 then
    some { literalContext, literalPosition, position := byte / 45 }
  else none

/-! ## contexts

All contexts stand in one array; these are the places where their groups begin.
-/

namespace Contexts

/-- whether a repetition comes, by phase and position -/
def isMatch : Nat := 0
/-- whether its distance is one of the last, by phase -/
def isRecent : Nat := 192
/-- whether it is not the last, by phase -/
def isOlder : Nat := 204
/-- whether it is not the last but one, by phase -/
def isMuchOlder : Nat := 216
/-- whether it is the oldest, by phase -/
def isOldest : Nat := 228
/-- whether more than one byte is repeated from the last distance, by phase and position -/
def isLong : Nat := 240
/-- the size class of a distance, by length -/
def distanceClass : Nat := 432
/-- the rest of small distances -/
def distanceRest : Nat := 688
/-- the lowest bits of great distances -/
def distanceLow : Nat := 803
/-- lengths with a new distance -/
def newLength : Nat := 819
/-- lengths with one of the last distances -/
def recentLength : Nat := 1333
/-- literals -/
def literal : Nat := 1847

/-- all contexts before anything was learnt -/
def fresh (properties : Properties) : Array Nat :=
  Array.replicate
    (literal + (0x300 <<< (properties.literalContext + properties.literalPosition))) 0x400

end Contexts

/-- what was decompressed, and what it means for what comes next -/
structure History where
  out : Bytes := #[]
  /-- where the dictionary begins -/
  floor : Nat := 0
  phase : Nat := 0
  /-- the last distances, less one -/
  recent : Nat × Nat × Nat × Nat := (0, 0, 0, 0)

namespace History

/-- the number of bytes in the dictionary -/
def position (h : History) : Nat := h.out.size - h.floor

/-- repeats bytes from the dictionary -/
def copy (h : History) (length distance : Nat) : Option History :=
  if distance ≤ h.position then some { h with out := copyBack length distance h.out } else none

end History

/-! ## symbols -/

/-- the bits of a literal after a node of its tree; `model` is the byte that would have repeated,
and counts as long as it agrees -/
def literalBits (contexts : Nat) : (count node : Nat) → (model : Option Nat) → RangeScan Nat
  | 0, node, _ => return node
  | count + 1, node, none => do
    literalBits contexts count (2 * node + (← RangeScan.bit (contexts + node))) none
  | count + 1, node, some model => do
    let expected := (model >>> 7) % 2
    let bit ← RangeScan.bit (contexts + 0x100 * (1 + expected) + node)
    literalBits contexts count (2 * node + bit) (if bit = expected then some (2 * model) else none)

def literal (properties : Properties) (h : History) : RangeScan History := do
  let before := if h.position = 0 then 0 else (byteBack h.out 1).toNat
  let low := h.position % (1 <<< properties.literalPosition)
  let context := (low <<< properties.literalContext) + (before >>> (8 - properties.literalContext))
  let distance := h.recent.1 + 1
  if 7 ≤ h.phase ∧ h.position < distance then failure
  let model := if 7 ≤ h.phase then some (byteBack h.out distance).toNat else none
  let byte ← literalBits (Contexts.literal + 0x300 * context) 8 1 model
  let phase := if h.phase < 4 then 0 else if h.phase < 10 then h.phase - 3 else h.phase - 6
  return { h with out := h.out.push (byte - 0x100).toUInt8, phase }

/-- the length of a repetition, less two -/
def length (contexts position : Nat) : RangeScan Nat := do
  let long ← RangeScan.bit contexts
  if long = 0 then RangeScan.tree (contexts + 2 + 8 * position) 3
  else
    let longer ← RangeScan.bit (contexts + 1)
    if longer = 0 then return 8 + (← RangeScan.tree (contexts + 130 + 8 * position) 3)
    else return 16 + (← RangeScan.tree (contexts + 258) 8)

/-- a new distance, less one -/
def distance (length : Nat) : RangeScan Nat := do
  let sizeClass ← RangeScan.tree (Contexts.distanceClass + 64 * min length 3) 6
  if sizeClass < 4 then return sizeClass
  let bits := sizeClass / 2 - 1
  let least := (2 + sizeClass % 2) <<< bits
  if sizeClass < 14 then
    return least + (← RangeScan.reverseTree (Contexts.distanceRest + least - sizeClass) bits 1)
  else
    let middle ← RangeScan.evenBits (bits - 4) 0
    return least + 16 * middle + (← RangeScan.reverseTree Contexts.distanceLow 4 1)

/-- moves one of the last distances to the front -/
def older (phase : Nat) (recent : Nat × Nat × Nat × Nat) : RangeScan (Nat × Nat × Nat × Nat) := do
  let (one, two, three, four) := recent
  let muchOlder ← RangeScan.bit (Contexts.isMuchOlder + phase)
  if muchOlder = 0 then return (two, one, three, four)
  else
    let oldest ← RangeScan.bit (Contexts.isOldest + phase)
    return if oldest = 0 then (three, one, two, four) else (four, one, two, three)

/-- a repetition from one of the last distances -/
def recentMatch (position : Nat) (h : History) : RangeScan History := do
  let early := h.phase < 7
  let old ← RangeScan.bit (Contexts.isOlder + h.phase)
  let long ← if old = 1 then pure 1
    else RangeScan.bit (Contexts.isLong + 16 * h.phase + position)
  if long = 0 then
    ({ h with phase := if early then 9 else 11 } : History).copy 1 (h.recent.1 + 1)
  else
    let recent ← if old = 1 then older h.phase h.recent else pure h.recent
    let length ← length Contexts.recentLength position
    ({ h with phase := if early then 8 else 11, recent } : History).copy (length + 2) (recent.1 + 1)

/-- a repetition from a new distance; the one that marks the end is beyond any dictionary -/
def newMatch (position : Nat) (h : History) : RangeScan History := do
  let (one, two, three, _) := h.recent
  let length ← length Contexts.newLength position
  let distance ← distance length
  let recent := (distance, one, two, three)
  let phase := if h.phase < 7 then 7 else 10
  ({ h with phase, recent } : History).copy (length + 2) (distance + 1)

def symbol (properties : Properties) (h : History) : RangeScan History := do
  let position := h.position % (1 <<< properties.position)
  let isMatch ← RangeScan.bit (Contexts.isMatch + 16 * h.phase + position)
  if isMatch = 0 then literal properties h
  else
    let isRecent ← RangeScan.bit (Contexts.isRecent + h.phase)
    if isRecent = 1 then recentMatch position h else newMatch position h

/-- symbols until the output has `size` bytes; each adds a byte at least -/
def symbols (properties : Properties) (size : Nat) : (fuel : Nat) → History → RangeScan History
  | 0, h => return h
  | fuel + 1, h => do
    if size ≤ h.out.size then return h else symbols properties size fuel (← symbol properties h)

end Baskets.Codec.Lzma
