import Baskets.Bytes
import Baskets.Fault
import Baskets.Text.Lossy

/-!
# Reading a byte view from a position

A `Cursor` is a view of bytes and a position in it.  A `Scan` reads and moves the cursor, and gives
a value or a fault; the cursor survives a fault, at the place where the scan stopped.  All scans
take their bytes through `Scan.take`, which looks at the bounds once and takes nothing when there
are too few bytes; so a scan of one number or of one stretch of bytes leaves the cursor where it
was when it fails, and only composed scans can stop half way.

Two kinds of header stand before objects.  A version header is a byte count with bit 30 set and a
version word, or the version word alone: the first four bytes are read, and two of them given back
when they hold no count.  The other is the head of a `TObject`, whose length depends on two of its
own bits.
-/

namespace Baskets

structure Cursor where
  data : Bytes
  pos : Nat := 0
deriving DecidableEq, Repr

namespace Cursor

/-- the number of bytes from the position on -/
def remaining (c : Cursor) : Nat := c.data.size - c.pos

end Cursor

/-- a read that moves the cursor, even when it fails -/
abbrev Scan := ExceptT Fault (StateM Cursor)

namespace Scan

def run {α : Type} (scan : Scan α) (c : Cursor) : Except Fault α × Cursor := scan c

def pos : Scan Nat := do return (← get).pos

/-- the next `n` bytes -/
def take (n : Nat) : Scan Bytes := do
  let c ← get
  if c.pos + n ≤ c.data.size then
    set { c with pos := c.pos + n }
    return c.data.extract c.pos (c.pos + n)
  else throw (.underflow c.pos n c.remaining)

def skip (n : Nat) : Scan Unit := do
  let c ← get
  if c.pos + n ≤ c.data.size then set { c with pos := c.pos + n }
  else throw (.underflow c.pos n c.remaining)

def stepBack (n : Nat) : Scan Unit := do
  let c ← get
  if n ≤ c.pos then set { c with pos := c.pos - n }
  else throw (.malformed (.stepBack n c.pos))

/-- goes to a position counted from the start of the view; its end is a position too -/
def moveTo (pos : Nat) : Scan Unit := do
  let c ← get
  if pos ≤ c.data.size then set { c with pos := pos }
  else throw (.underflow c.pos (pos - c.pos) c.remaining)

/-- an unsigned number in `width` bytes -/
def unsigned (width : Nat) : Scan Nat := do return (← take width).big

/-- a two's complement number in `width` bytes -/
def signed (width : Nat) : Scan Int := do return (← take width).bigSigned

/-- one byte, false only when it is zero -/
def bool : Scan Bool := do return (← unsigned 1) != 0

/-- text after its length, which takes one byte, or that byte at its greatest and four more -/
def string : Scan String := do
  let short ← unsigned 1
  let length ← if short = 255 then unsigned 4 else pure short
  return Text.lossy (← take length)

end Scan

/-! ## headers of objects -/

/-- the number without its bit `i` -/
def clearBit (n i : Nat) : Nat := if n.testBit i then n - (1 <<< i) else n

/-- what stands before a streamed object -/
structure VersionHeader where
  /-- the bytes behind the count word that belong to the object, if they were counted -/
  byteCount : Option Nat
  /-- the class version of this object -/
  version : Nat
  /-- the members of several objects were written column by column -/
  memberwise : Bool
deriving DecidableEq, Repr

/-- splits the version word into the version and the mark in bit 14 -/
def VersionHeader.ofWords (byteCount : Option Nat) (word : Nat) : VersionHeader where
  byteCount := byteCount
  version := clearBit word 14
  memberwise := word.testBit 14

namespace Scan

def versionHeader : Scan VersionHeader := do
  let first ← unsigned 4
  if first.testBit 30 then
    let word ← unsigned 2
    return .ofWords (some (clearBit first 30)) word
  else
    stepBack 2
    return .ofWords none (first / 0x10000)

/-- the head of a `TObject`: its unique number and its bits, with the on-heap bit 24 set -/
def objectHead : Scan (Nat × Nat) := do
  let version ← unsigned 2
  if version.testBit 14 then skip 4
  let unique ← unsigned 4
  let bits := (← unsigned 4) ||| 0x1000000
  -- a referenced object (bit 4) carries the number of its process
  if bits.testBit 4 then skip 2
  return (unique, bits)

end Scan

end Baskets
