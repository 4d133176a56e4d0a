import Baskets.Contribution
import Baskets.Registry

/-!
# Reading, with or without building a decoder

A `Reading` moves a cursor like a `Scan` does, and may grow a generator at the same time.  It looks
at the generator in one place only, `Reading.generating`, to choose between two faults; all else
that concerns the generator goes through `contribute` and `leave`, which do nothing when there is
none.
-/

namespace Baskets

/-- how far a reading has come -/
structure Progress where
  cursor : Cursor
  generator : Option Generator := none
deriving BEq, Repr

abbrev Reading := ExceptT Fault (StateM Progress)

namespace Reading

def run {α : Type} (reading : Reading α) (progress : Progress) : Except Fault α × Progress :=
  reading progress

/-- a scan that the generator does not see -/
def scan {α : Type} (scan : Scan α) : Reading α := fun progress =>
  let (result, cursor) := scan.run progress.cursor
  (result, { progress with cursor })

/-- a scan, and the number of bytes from its start to its end -/
def measured {α : Type} (s : Scan α) : Reading (α × Nat) := scan do
  let start ← Scan.pos
  let a ← s
  return (a, (← Scan.pos) - start)

def generating : Reading Bool := do return (← get).generator.isSome

/-- grows the generator, if there is one -/
def contribute (f : Generator → Generator) : Reading Unit :=
  modify fun progress => { progress with generator := progress.generator.map f }

/-- adds a node below the active one -/
def add (info : NodeInfo) : Reading Unit := contribute fun g => (g.add (.mk info [])).2

/-- returns to the node that was active before -/
def leave : Reading Unit := do
  match (← get).generator with
  | none => return
  | some g =>
    let g ← g.pop
    modify fun progress => { progress with generator := some g }

/-- the results of a reading done `count` times -/
def times {α : Type} : Nat → Reading α → Reading (List α)
  | 0, _ => return []
  | count + 1, reading => do
    let first ← reading
    return first :: (← times count reading)

/-- puts a loop around what a reading adds to the active node, when it comes as the first child
after `slot` others -/
def looping {α : Type} (slot : Nat) (start : Instruction) (reading : Reading α) : Reading α := do
  let place := (← get).generator.map fun g => (g.active, (g.children g.active).length)
  let result ← reading
  match place with
  | some (id, before) => if before = slot then contribute (Contribution.loopChild id slot start)
  | none => pure ()
  return result

/-! ## headers -/

/-- what to say of members written column by column -/
def memberwise {α : Type} (what : String) : Reading α := do
  if ← generating then throw (.ungeneratable (.memberwise what)) else throw (.memberwise what)

/-- a header of a container, and its length; there is none unless the context says so -/
def containerHeader (what : String) (ctx : Context) : Reading (Option VersionHeader × Nat) := do
  if !ctx.header then return (none, 0)
  let (header, skipped) ← measured Scan.versionHeader
  if header.memberwise then memberwise what
  return (some header, skipped)

/-- checks that a value that began at `start` ends where its header says -/
def checkEnd (what : String) (start : Nat) (header : Option VersionHeader) : Reading Unit := do
  match header.bind (·.byteCount) with
  | none => return
  | some count =>
    let actual ← scan Scan.pos
    let expected := start + 4 + count
    if actual ≠ expected then throw (.malformed (.byteCount what expected actual))

/-- a reading of the body of a container, between its header and the check of its end -/
def container {α : Type} (what : String) (ctx : Context) (body : Nat → Reading α) : Reading α := do
  let start ← scan Scan.pos
  let (header, skipped) ← containerHeader what ctx
  let result ← body skipped
  checkEnd what start header
  return result

end Reading

end Baskets
