import Baskets.Reading

/-!
# Reading streamed values

`Reading.streamed` reads a value of any type, by recursion on the type.  A class by name is read by
a function given from outside, and `Reading.named` is that function: it finds the layout, reads
bases and members, and for them uses itself with one level of nesting less.  Every object takes at
least two bytes for its version before its bases and members begin, so `Registry.read` allows half
as many levels as there are bytes left, and the last level is met only with too few bytes for a
header.

When a generator is there, each type adds its node before it reads its bytes, elements and members
below the node that holds them, and goes back to the node that was active.
-/

namespace Baskets.Reading

/-! ## types of a fixed layout -/

def primitive (p : Primitive) (field : Option String) (ctx : Context) : Reading Value := do
  add (Contribution.number p field ctx)
  scan p.scan

def text (kind : TextKind) (field : Option String) (ctx : Context) : Reading Value :=
  let body (skipped : Nat) : Reading Value := do
    add (Contribution.text skipped field ctx)
    return .text (← scan Scan.string)
  match kind with
  | .tstring => body 0
  | .stdString => container "std::string" ctx body

def objectHead (field : Option String) (ctx : Context) : Reading Value := do
  let ((unique, bits), skipped) ←
    measured (if ctx.objectHead then Scan.objectHead else pure (0, 0))
  contribute fun g => g.enter (Contribution.objectStart skipped field ctx)
  add (Contribution.record "TObject" ctx)
  leave
  return .record [("@fUniqueID", .uint unique), ("@fBits", .uint bits)]

def datime (field : Option String) (ctx : Context) : Reading Value := do
  add (Contribution.datime field ctx)
  return .record [("fDatime", .uint (← scan (Scan.unsigned 4)))]

def time (field : Option String) (ctx : Context) : Reading Value :=
  container "TTime" ctx fun skipped => do
    add (Contribution.time skipped field ctx)
    return .record [("fMilliSec", .int (← scan (Scan.signed 8)))]

def ref (field : Option String) (ctx : Context) : Reading Value := do
  add (Contribution.ref field ctx)
  scan (Scan.skip 2)
  let reference ← scan (Scan.unsigned 4)
  scan (Scan.skip 6)
  return .record [("ref", .uint reference)]

def refArray (field : Option String) (ctx : Context) : Reading Value :=
  container "TRefArray" ctx fun skipped => do
    add (Contribution.refArray skipped field ctx)
    scan (Scan.skip 10)
    let name ← scan Scan.string
    let size ← scan (Scan.signed 4)
    scan (Scan.skip 6)
    if size < 0 then throw (.malformed (.arraySize size))
    let refs ← times size.toNat do return Value.int (← scan (Scan.signed 4))
    return .record [("fName", .text name), ("fSize", .int size), ("refs", .list refs)]

/-! ## types of other types -/

/-- a way to read a value of one type -/
abbrev Reader := Option String → Context → Reading Value

/-- the elements of a list below a node of their own, or in the column of the list -/
def elements (type : StreamType) (count : Nat) (reading : Reading Value) : Reading (List Value) :=
  match type.primitive? with
  | some p => times count (scan p.scan)
  | none => times count reading

/-- adds the node of a list, which stays active for elements that are no numbers -/
def addList (type : StreamType) (count : Nat) (info : NodeInfo) : Reading Unit :=
  match type.primitive? with
  | some _ => add info
  | none => contribute fun g =>
    let g := g.enter info
    if count = 0 then g.markIncomplete else g

def leaveList (type : StreamType) : Reading Unit :=
  if type.primitive?.isNone then leave else pure ()

def vector (element : StreamType) (reader : Reader) : Reader := fun field ctx =>
  container "std::vector" ctx fun skipped => do
    let count ← scan (Scan.unsigned 4)
    addList element count (Contribution.vector element skipped field ctx)
    let items ← elements element count (reader none ctx.items)
    leaveList element
    return .list items

def array (element : StreamType) (count : Nat) (reader : Reader) : Reader := fun field ctx => do
  addList element count (Contribution.array element count field ctx)
  let items ← elements element count (reader field ctx.elements)
  leaveList element
  return .list items

/-- the header of a map, and its length; only maps with all keys before all values are read -/
def mapHeader (ctx : Context) : Reading (Option VersionHeader × Nat) := do
  if !ctx.header then return (none, 0)
  let (header, skipped) ← measured Scan.versionHeader
  if !header.memberwise then throw .pairwiseMap
  scan (Scan.skip 6)
  return (some header, skipped + 6)

def map (keyReader valueReader : Reader) : Reader := fun field ctx => do
  let start ← scan Scan.pos
  let (header, skipped) ← mapHeader ctx
  let count ← scan (Scan.unsigned 4)
  contribute fun g =>
    let g := g.enter (Contribution.map skipped field ctx)
    if count = 0 then g.markIncomplete else g
  let keys ← looping 0 .loopKeeping (times count (keyReader none ctx.mapKeys))
  let values ← looping 1 .loopTaking (times count (valueReader none ctx.mapValues))
  leave
  checkEnd "std::map" start header
  return .map (keys.zip values)

/-! ## classes -/

/-- what the header of an object says -/
structure Opening where
  start : Nat
  header : VersionHeader
  /-- the length of the header -/
  skipped : Nat
  /-- the layout of the version, or of the newest one if there is none -/
  layout : Layout
  /-- whether the layout is not the newest -/
  otherVersion : Bool

/-- reads the header of an object of a class -/
def openObject (registry : Registry) (className : String) (ctx : Context) : Reading Opening := do
  if (← generating) && ctx.breadcrumbs.contains className then
    throw (.ungeneratable (.selfContaining className))
  match registry.latest? className with
  | none => throw (.unknownClass className)
  | some latest =>
    let start ← scan Scan.pos
    let (header, skipped) ← measured Scan.versionHeader
    if header.memberwise then memberwise className
    let layout := (registry.get? className header.version).getD latest
    return { start, header, skipped, layout, otherVersion := layout.version ≠ latest.version }

/-- the fields that a base class adds -/
def baseFields (base : String) : Value → List (String × Value)
  | .record fields => fields
  | value => [(base, value)]

/-- the fields of the bases, each read below a node of its own -/
def bases (readBase : String → Reader) (ctx : Context) :
    List String → Reading (List (String × Value))
  | [] => return []
  | base :: rest => do
    let inner := ctx.inBase base
    contribute fun g => g.enter (Contribution.base base inner)
    let value ← readBase base none inner
    leave
    return baseFields base value ++ (← bases readBase ctx rest)

def members (readMember : StreamType → Reader) (ctx : Context) :
    List Member → Reading (List (String × Value))
  | [] => return []
  | member :: rest => do
    let value ← readMember member.type (some member.name) (ctx.inMember member.name)
    return (member.name, value) :: (← members readMember ctx rest)

/-- the bases and members of an object after its header -/
def body (reader : StreamType → Reader) (className : String) (opening : Opening) : Reader :=
  fun field outer => do
    let ctx := outer.inClass className
    contribute
      (Contribution.intoObject className opening.skipped opening.otherVersion field ctx)
    let inherited ← bases (fun base => reader (.ofClass base)) ctx opening.layout.bases
    let own ← members reader ctx opening.layout.members
    leave
    checkEnd className opening.start (some opening.header)
    return .record (inherited ++ own)

/-! ## all types -/

/-- reads a value of a type, and classes by name with the function given for them -/
def streamed (readNamed : String → Reader) : StreamType → Reader
  | .primitive p => primitive p
  | .text kind => text kind
  | .object => objectHead
  | .datime => datime
  | .time => time
  | .ref => ref
  | .refArray => refArray
  | .vector element => vector element (streamed readNamed element)
  | .array element count => array element count.toNat (streamed readNamed element)
  | .map key value => map (streamed readNamed key) (streamed readNamed value)
  | .named name => readNamed name

/-- reads an object of a class, with objects inside it down to some depth -/
def named (registry : Registry) : Nat → String → Reader
  | 0, className => fun _ ctx => do
    let _ ← openObject registry className ctx
    scan do
      let c ← get
      throw (.underflow c.pos 4 c.remaining)
  | depth + 1, className => fun field ctx => do
    let opening ← openObject registry className ctx
    body (streamed (named registry depth)) className opening field ctx

end Reading

/-- reads a value of a type from the place the cursor is at -/
def Registry.read (registry : Registry) (type : StreamType) (field : Option String)
    (ctx : Context) : Reading Value := do
  let depth := (← get).cursor.remaining / 2
  Reading.streamed (Reading.named registry depth) type field ctx

end Baskets
