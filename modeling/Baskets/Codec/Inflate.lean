import Baskets.Codec.Canonical
import Baskets.Codec.Checksum
import Baskets.Codec.Window

/-!
# Inflating

A zlib stream is a header of two bytes, deflated data and the Adler-32 of what they inflate to.
Deflated data is a sequence of blocks: plain bytes, or words of two prefix codes, either fixed or
sent with the block.  A word stands for a byte, for the end of the block or for the length of a
repetition, whose distance follows.  The window starts out as zeros, so a distance may reach back
before the first byte.
-/

namespace Baskets.Codec.Inflate

/-! ## tables -/

/-- the least length and the number of extra bits for each word from 257 on -/
def lengthCodes : Array (Nat × Nat) := #[
  (3, 0), (4, 0), (5, 0), (6, 0), (7, 0), (8, 0), (9, 0), (10, 0), (11, 1), (13, 1), (15, 1),
  (17, 1), (19, 2), (23, 2), (27, 2), (31, 2), (35, 3), (43, 3), (51, 3), (59, 3), (67, 4), (83, 4),
  (99, 4), (115, 4), (131, 5), (163, 5), (195, 5), (227, 5), (258, 0)]

/-- the least distance and the number of extra bits for each word -/
def distanceCodes : Array (Nat × Nat) := #[
  (1, 0), (2, 0), (3, 0), (4, 0), (5, 1), (7, 1), (9, 2), (13, 2), (17, 3), (25, 3), (33, 4),
  (49, 4), (65, 5), (97, 5), (129, 6), (193, 6), (257, 7), (385, 7), (513, 8), (769, 8), (1025, 9),
  (1537, 9), (2049, 10), (3073, 10), (4097, 11), (6145, 11), (8193, 12), (12289, 12), (16385, 13),
  (24577, 13)]

/-- the order in which the lengths of the words for lengths are sent -/
def lengthOrder : List Nat := [16, 17, 18, 0, 8, 7, 9, 6, 10, 5, 11, 4, 12, 3, 13, 2, 14, 1, 15]

/-- the two codes of a block -/
structure Codes where
  literals : Canonical
  distances : Canonical

def fixedLengths : List Nat :=
  List.replicate 144 8 ++ List.replicate 112 9 ++ List.replicate 24 7 ++ List.replicate 8 8

def fixedCodes? : Option Codes := do
  return {
    literals := ← Canonical.ofLengths? true fixedLengths
    distances := ← Canonical.ofLengths? true (List.replicate 32 5) }

/-! ## codes sent with a block -/

/-- reads lengths until there are `count`, given those before, the last one first -/
def lengths (code : Canonical) (count : Nat) : (fuel : Nat) → List Nat → BitScan (List Nat)
  | 0, _ => failure
  | fuel + 1, before => do
    if count ≤ before.length then
      BitScan.require (before.length = count)
      return before.reverse
    let word ← code.scan
    if word < 16 then lengths code count fuel (word :: before)
    else if word = 16 then
      let previous ← BitScan.ofOption before.head?
      let times := 3 + (← BitScan.take 2)
      lengths code count fuel (List.replicate times previous ++ before)
    else
      let times ← if word = 17 then (3 + ·) <$> BitScan.take 3 else (11 + ·) <$> BitScan.take 7
      lengths code count fuel (List.replicate times 0 ++ before)

/-- the lengths of the words for lengths, in the order of sending -/
def lengthLengths : List Nat → BitScan (List (Nat × Nat))
  | [] => return []
  | symbol :: symbols => do
    let length ← BitScan.take 3
    return (symbol, length) :: (← lengthLengths symbols)

def sentCodes : BitScan Codes := do
  let literalCount := 257 + (← BitScan.take 5)
  let distanceCount := 1 + (← BitScan.take 5)
  let lengthCount := 4 + (← BitScan.take 4)
  BitScan.require (literalCount ≤ 286 ∧ distanceCount ≤ 30)
  let sent ← lengthLengths (lengthOrder.take lengthCount)
  let code ← BitScan.ofOption (Canonical.ofLengths? false
    ((List.range 19).map fun symbol => (sent.lookup symbol).getD 0))
  let count := literalCount + distanceCount
  let all ← lengths code count (count + 1) []
  return {
    literals := ← BitScan.ofOption (Canonical.ofLengths? true (all.take literalCount))
    distances := ← BitScan.ofOption (Canonical.ofLengths? true (all.drop literalCount)) }

/-! ## blocks -/

/-- a number that has a word and perhaps extra bits -/
def extended (codes : Array (Nat × Nat)) (word : Nat) : BitScan Nat := do
  let (least, extra) ← BitScan.ofOption codes[word]?
  return least + (← BitScan.take extra)

/-- the words of a block up to its end -/
def words (codes : Codes) : (fuel : Nat) → Bytes → BitScan Bytes
  | 0, _ => failure
  | fuel + 1, out => do
    let word ← codes.literals.scan
    if word < 256 then words codes fuel (out.push word.toUInt8)
    else if word = 256 then return out
    else
      let length ← extended lengthCodes (word - 257)
      let distance ← extended distanceCodes (← codes.distances.scan)
      words codes fuel (copyBack length distance out)

/-- a block of plain bytes, after their number and its complement -/
def plain (out : Bytes) : BitScan Bytes := do
  BitScan.align
  let length ← BitScan.little 2
  let complement ← BitScan.little 2
  BitScan.require (length + complement = 0xffff)
  return out ++ (← BitScan.bytes length)

/-- blocks up to the last one; each takes three bits at least, and each word one -/
def blocks : (fuel : Nat) → Bytes → BitScan Bytes
  | 0, _ => failure
  | fuel + 1, out => do
    let last ← BitScan.take 1
    let kind ← BitScan.take 2
    let coded (codes : Codes) : BitScan Bytes := do words codes (← BitScan.left) out
    let out ← match kind with
      | 0 => plain out
      | 1 => do coded (← BitScan.ofOption fixedCodes?)
      | 2 => do coded (← sentCodes)
      | _ => failure
    if last = 1 then return out else blocks fuel out

def inflate : BitScan Bytes := do blocks ((← BitScan.left) + 1) #[]

/-- a header, deflated data and their checksum; bytes behind them do not matter -/
def zlib : BitScan Bytes := do
  let method ← BitScan.take 8
  let flags ← BitScan.take 8
  BitScan.require ((method * 256 + flags) % 31 = 0 ∧ method % 16 = 8 ∧ method / 16 ≤ 7)
  -- no dictionary
  BitScan.require (!flags.testBit 5)
  let out ← inflate
  BitScan.align
  let sum ← BitScan.bytes 4
  BitScan.require (Bytes.big sum = Checksum.adler32 out)
  return out

end Baskets.Codec.Inflate
