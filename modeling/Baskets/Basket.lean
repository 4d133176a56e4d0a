import Baskets.Block
import Baskets.Cursor

/-!
# Baskets

A basket holds the entries of one branch, one after the other.  It begins with a header, the first
part of which says how long the whole header is and the last part of which stands at its end.  A
basket that stands for itself has a payload, compressed if its size differs from that of the object;
an embedded basket has another header and then its bytes.

The *border* is where the entries end.  Behind it there may be a footer of offsets, one for the
start of each entry, counted from the start of the header, between two words of no meaning; in an
embedded basket the footer comes first, and its last word is the beginning of the other header.
-/

namespace Baskets

structure BasketHeader where
  /-- the header and the payload as stored -/
  totalBytes : Int
  headerVersion : Int
  /-- the payload as it was -/
  objectLength : Int
  /-- packed date and time -/
  datime : Nat
  /-- the length of the header -/
  headerLength : Int
  cycle : Int
  version : Nat
  bufferSize : Int
  /-- the size of each entry, if it is the same for all -/
  entrySize : Int
  entryCount : Int
  /-- where the entries end, counted from the start of the header -/
  lastOffset : Int
deriving DecidableEq, Repr

namespace BasketHeader

/-- the length of the fields at the start of the header -/
def frontLength : Nat := 18

/-- the length of the fields at the end of the header, with one more byte -/
def backLength : Nat := 19

/-- reads a header and goes on to its end -/
def scan : Scan BasketHeader := do
  let start ← Scan.pos
  let totalBytes ← Scan.signed 4
  let headerVersion ← Scan.signed 2
  let objectLength ← Scan.signed 4
  let datime ← Scan.unsigned 4
  let headerLength ← Scan.signed 2
  let cycle ← Scan.signed 2
  if headerLength < (frontLength + backLength : Nat) then
    throw (.malformed (.keyTooShort headerLength))
  Scan.moveTo (start + (headerLength.toNat - backLength))
  let version ← Scan.unsigned 2
  let bufferSize ← Scan.signed 4
  let entrySize ← Scan.signed 4
  let entryCount ← Scan.signed 4
  let lastOffset ← Scan.signed 4
  Scan.skip 1
  return { totalBytes, headerVersion, objectLength, datime, headerLength, cycle, version,
           bufferSize, entrySize, entryCount, lastOffset }

variable (h : BasketHeader)

/-- whether the basket lies inside its branch -/
def isEmbedded : Bool := h.totalBytes ≤ h.headerLength

/-- the length of the entries -/
def border : Int := h.lastOffset - h.headerLength

/-- the size with the payload undone -/
def uncompressedBytes : Int := h.headerLength + h.objectLength

/-- whether an embedded basket has a footer: the entries have not all the same size -/
def hasEmbeddedFooter : Bool := h.entrySize * h.entryCount + h.headerLength ≠ h.lastOffset

end BasketHeader

/-- what was in a basket -/
structure BasketContents where
  /-- the entries, one after the other -/
  data : Bytes
  /-- the entries with the footer, if the basket stands for itself -/
  raw : Option Bytes := none
  /-- where the entries begin, and where the last one ends -/
  offsets : Option (List Nat) := none
  /-- the blocks of a compressed payload -/
  blocks : Option (List BlockInfo) := none
deriving DecidableEq, Repr

structure Basket where
  header : BasketHeader
  /-- the place of the basket in its branch, as far as it is known -/
  number : Option Nat := none
  /-- nothing when only the header was asked for -/
  contents : Option BasketContents := none
deriving DecidableEq, Repr

/-- what is asked of a basket -/
structure BasketContext where
  number : Option Nat := none
  /-- whether more than the header is read -/
  readContents : Bool := true
deriving DecidableEq, Repr

/-! ## footers -/

/-- the start of an entry, counted in the entries, from a word of the footer -/
def entryStart (headerLength : Int) (word : Bytes) : Except Fault Nat :=
  let offset := word.bigSigned - headerLength
  if offset < 0 then .error (.malformed (.offsetBeforeKey offset)) else .ok offset.toNat

/-- the starts of `count` entries, from a position in the footer on -/
def entryStarts (headerLength : Int) (footer : Bytes) :
    (count pos : Nat) → Except Fault (List Nat)
  | 0, _ => .ok []
  | count + 1, pos => do
    let first ← entryStart headerLength (footer.extract pos (pos + 4))
    return first :: (← entryStarts headerLength footer count (pos + 4))

/-- the bounds of the entries: their starts from the footer, then the border -/
def entryBounds (h : BasketHeader) (border : Nat) (footer : Bytes) :
    Except Fault (List Nat) := do
  if footer.size % 4 ≠ 0 ∨ footer.size < 8 then throw (.malformed (.footerRagged footer.size))
  let found := footer.size / 4 - 1
  let expected := h.entryCount.toNat + 1
  if found ≠ expected then throw (.malformed (.footerCount found expected))
  return (← entryStarts h.headerLength footer h.entryCount.toNat 4) ++ [border]

/-! ## contents -/

/-- a result with its own faults, as a scan that does not move -/
def Scan.ofExcept {α : Type} : Except Fault α → Scan α
  | .ok a => return a
  | .error fault => throw fault

namespace BasketContents

/-- the bounds from the footer in front of an embedded basket -/
def embeddedBounds (h : BasketHeader) (border : Nat) : Scan (Option (List Nat)) := do
  if h.hasEmbeddedFooter then
    if h.entryCount < 0 then throw (.malformed (.entriesNegative h.entryCount))
    let footer ← Scan.take (8 + 4 * h.entryCount.toNat)
    let bounds ← Scan.ofExcept (entryBounds h border footer)
    Scan.stepBack 4
    return some bounds
  else return none

/-- the contents of an embedded basket; its second header has nothing new -/
def embedded (h : BasketHeader) (border : Nat) : Scan BasketContents := do
  let offsets ← embeddedBounds h border
  if h.headerLength < 0 then throw (.malformed (.keyNegative h.headerLength))
  Scan.skip h.headerLength.toNat
  return { data := ← Scan.take border, offsets }

/-- the payload of a basket that stands for itself, and its blocks if it was compressed -/
def payload (codecs : Algorithm → Codec) (stored size : Nat) :
    Scan (Bytes × Option (List BlockInfo)) := do
  let bytes ← Scan.take stored
  if stored = size then return (bytes, none)
  else
    match Block.decompress codecs bytes stored size with
    | .ok (raw, blocks) => return (raw, some blocks)
    | .error cause => throw (.block cause)

/-- the bounds from the footer behind the border, if there is one -/
def standingBounds (h : BasketHeader) (border : Nat) (raw : Bytes) :
    Except Fault (Option (List Nat)) := do
  if (border : Int) = h.objectLength then return none
  if raw.size < border then throw (.malformed (.borderPastPayload border raw.size))
  return some (← entryBounds h border (raw.extract border raw.size))

/-- the contents of a basket that stands for itself -/
def standing (codecs : Algorithm → Codec) (h : BasketHeader) (border : Nat) :
    Scan BasketContents := do
  if h.objectLength < 0 then throw (.malformed (.objectNegative h.objectLength))
  let stored := (h.totalBytes - h.headerLength).toNat
  let (raw, blocks) ← payload codecs stored h.objectLength.toNat
  let offsets ← Scan.ofExcept (standingBounds h border raw)
  return { data := raw.extract 0 border, raw := some raw, offsets, blocks }

/-- the contents that follow a header -/
def scan (codecs : Algorithm → Codec) (h : BasketHeader) : Scan BasketContents := do
  if h.border < 0 then throw (.malformed (.borderNegative h.lastOffset h.headerLength))
  if h.isEmbedded then embedded h h.border.toNat else standing codecs h h.border.toNat

end BasketContents

/-! ## baskets -/

namespace Basket

/-- reads what follows a header, if it is asked for -/
def ofHeader (codecs : Algorithm → Codec) (ctx : BasketContext) (header : BasketHeader) :
    Scan Basket := do
  if ctx.readContents then
    return { header, number := ctx.number, contents := some (← BasketContents.scan codecs header) }
  else return { header, number := ctx.number }

/-- reads a basket whose header is at the start of the bytes -/
def decode (codecs : Algorithm → Codec) (ctx : BasketContext) (bytes : Bytes) :
    Except Fault Basket :=
  let whole : Scan Basket := do ofHeader codecs ctx (← BasketHeader.scan)
  (whole.run { data := bytes }).1

/-- the fields of a header that bound the basket: all bytes, and the length of the header -/
def scanExtent : Scan (Int × Int) := do
  let totalBytes ← Scan.signed 4
  Scan.moveTo 14
  return (totalBytes, ← Scan.signed 2)

/-- the bytes of a basket from the start of its header on; an embedded one does not know its end -/
def extent (pos : Nat) (rest : Bytes) : Except Fault Bytes := do
  let (totalBytes, headerLength) ← (Scan.run scanExtent { data := rest }).1
  if totalBytes ≤ max headerLength 0 then return rest
  else if rest.size < totalBytes.toNat then
    throw (.underflow pos totalBytes.toNat rest.size)
  else return rest.extract 0 totalBytes.toNat

/-- reads the basket whose header begins at a position in a file -/
def readAt (codecs : Algorithm → Codec) (ctx : BasketContext) (file : Bytes) (pos : Nat) :
    Except Fault Basket := do
  if file.size ≤ pos then throw (.underflow pos 1 0)
  decode codecs ctx (← extent pos (file.extract pos file.size))

/-- reads the baskets at some positions, which are numbered from `first` on; the first fault ends
it -/
def readFrom (codecs : Algorithm → Codec) (readContents : Bool) (file : Bytes) :
    (first : Nat) → List Nat → Except Fault (List Basket)
  | _, [] => .ok []
  | first, pos :: rest => do
    let basket ← readAt codecs { number := some first, readContents } file pos
    return basket :: (← readFrom codecs readContents file (first + 1) rest)

/-- reads the baskets of a branch, which are numbered in the order of the positions -/
def readAll (codecs : Algorithm → Codec) (readContents : Bool) (file : Bytes)
    (positions : List Nat) : Except Fault (List Basket) :=
  readFrom codecs readContents file 0 positions

variable (basket : Basket)

def data : Option Bytes := basket.contents.map (·.data)

def raw : Option Bytes := basket.contents.bind (·.raw)

def offsets : Option (List Nat) := basket.contents.bind (·.offsets)

def blocks : Option (List BlockInfo) := basket.contents.bind (·.blocks)

/-- the number of entries, none if the header has less than none -/
def size : Nat := basket.header.entryCount.toNat

/-- the bytes between two bounds, if they are in order and in the data -/
def slice? (data : Bytes) (start stop : Nat) : Option Bytes :=
  if start ≤ stop ∧ stop ≤ data.size then some (data.extract start stop) else none

/-- the bytes of an entry -/
def entry? (i : Nat) : Option Bytes := do
  let offsets ← basket.offsets
  let start ← offsets[i]?
  let stop ← offsets[i + 1]?
  slice? (← basket.data) start stop

/-! ### all entries -/

/-- the bytes between each bound and the next, or why there are none -/
def between (data : Bytes) : List Nat → List (Except Fault Bytes)
  | start :: stop :: rest =>
    (match slice? data start stop with
      | some bytes => .ok bytes
      | none => .error (.malformed (.entryRange start stop data.size))) ::
      between data (stop :: rest)
  | _ => []

/-- the bytes of each entry -/
def entries : Except Fault (List (Except Fault Bytes)) :=
  match basket.offsets, basket.data with
  | some offsets, some data => .ok (between data offsets)
  | _, _ => .error (.malformed (.noEntryOffsets basket.number))

end Basket

end Baskets
