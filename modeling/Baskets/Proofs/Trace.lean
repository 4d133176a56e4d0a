import Baskets.Reading.Streamed

/-!
# Traces of reads

A `Trace` is what a successful read took from the bytes, kept in the shape of the type: numbers and
texts as they came, the length of every header that was passed over, the elements of every list,
the parts of every object.  `Trace.Reads` says that a trace was taken between two cursors; it is
the reader without its generator, and without its faults.

What a read does besides is a function of its trace:

* `Trace.value`       the value that comes out;
* `Trace.contribute`  the nodes that a generator gains;
* `Trace.complete`    whether no list was too empty to show its elements;
* `Trace.marks`       the headers, each with its place and the node that passes over it.
-/

namespace Baskets

/-! ## parts of objects -/

/-- a base or a member of a class -/
inductive Part where
  | base (name : String)
  | member (member : Member)
deriving DecidableEq, Repr

namespace Part

def type : Part → StreamType
  | .base name => .ofClass name
  | .member own => own.type

/-- the field that the part fills by itself; a base has none -/
def field : Part → Option String
  | .base _ => none
  | .member own => some own.name

/-- the slot of the part in the object around it -/
def slot : Part → String
  | .base name => "@base " ++ name
  | .member own => own.name

def context (ctx : Context) : Part → Context
  | .base name => ctx.inBase name
  | .member own => ctx.inMember own.name

/-- the fields of the object that the value of the part makes -/
def fields (value : Value) : Part → List (String × Value)
  | .base name => Reading.baseFields name value
  | .member own => [(own.name, value)]

end Part

/-- the bases, then the members -/
def Layout.parts (layout : Layout) : List Part :=
  layout.bases.map .base ++ layout.members.map .member

/-! ## traces -/

inductive Trace where
  | number (p : Primitive) (value : Value)
  | text (kind : TextKind) (header : Nat) (bytes : Bytes)
  /-- the head of a `TObject`, `header` bytes long -/
  | head (header unique bits : Nat)
  | datime (packed : Nat)
  | time (header : Nat) (milliseconds : Int)
  | ref (reference : Nat)
  | refArray (header : Nat) (name : Bytes) (refs : List Int)
  | vector (element : StreamType) (header : Nat) (items : List Trace)
  | array (element : StreamType) (items : List Trace)
  | map (header : Nat) (keys values : List Trace)
  /-- an object of a class, its parts in the order of the layout it was read by -/
  | object (className : String) (header : Nat) (layout : Layout) (otherVersion : Bool)
    (parts : List Trace)

namespace Trace

mutual

/-- the value that was read -/
def value : Trace → Value
  | .number _ value => value
  | .text _ _ bytes => .text (Text.lossy bytes)
  | .head _ unique bits => .record [("@fUniqueID", .uint unique), ("@fBits", .uint bits)]
  | .datime packed => .record [("fDatime", .uint packed)]
  | .time _ milliseconds => .record [("fMilliSec", .int milliseconds)]
  | .ref reference => .record [("ref", .uint reference)]
  | .refArray _ name refs =>
    .record [("fName", .text (Text.lossy name)), ("fSize", .int refs.length),
      ("refs", .list (refs.map .int))]
  | .vector _ _ items => .list (values items)
  | .array _ items => .list (values items)
  | .map _ keys values' => .map ((values keys).zip (values values'))
  | .object _ _ layout _ parts => .record (fields layout.parts parts)

def values : List Trace → List Value
  | [] => []
  | trace :: traces => trace.value :: values traces

/-- the fields of an object with these parts -/
def fields (parts : List Part) : List Trace → List (String × Value)
  | [] => []
  | trace :: traces =>
    match parts with
    | [] => []
    | part :: parts => part.fields trace.value ++ fields parts traces

end

/-! ## what a generator gains -/

end Trace

namespace Generator

/-- back to the node saved last, if there is one -/
def left (g : Generator) : Generator :=
  match g.pop with
  | .ok h => h
  | .error _ => g

/-- adds the node of a list, and grows below it if the elements add nodes of their own -/
def inList (element : StreamType) (count : Nat) (info : NodeInfo) (grow : Generator → Generator)
    (g : Generator) : Generator :=
  match element.primitive? with
  | some _ => (g.add (.mk info [])).2
  | none =>
    let g := g.enter info
    (grow (if count = 0 then g.markIncomplete else g)).left

/-- grows a generator, and puts a loop around what came first under the active node -/
def looping (slot : Nat) (start : Instruction) (grow : Generator → Generator) (g : Generator) :
    Generator :=
  if (g.children g.active).length = slot then
    Contribution.loopChild g.active slot start (grow g)
  else grow g

end Generator

namespace Trace

mutual

/-- what the read adds to a generator -/
def contribute : Trace → Option String → Context → Generator → Generator
  | .number p _, field, ctx, g => (g.add (.mk (Contribution.number p field ctx) [])).2
  | .text _ header _, field, ctx, g => (g.add (.mk (Contribution.text header field ctx) [])).2
  | .head header _ _, field, ctx, g =>
    let g := g.enter (Contribution.objectStart header field ctx)
    (g.add (.mk (Contribution.record "TObject" ctx) [])).2.left
  | .datime _, field, ctx, g => (g.add (.mk (Contribution.datime field ctx) [])).2
  | .time header _, field, ctx, g => (g.add (.mk (Contribution.time header field ctx) [])).2
  | .ref _, field, ctx, g => (g.add (.mk (Contribution.ref field ctx) [])).2
  | .refArray header _ _, field, ctx, g =>
    (g.add (.mk (Contribution.refArray header field ctx) [])).2
  | .vector element header items, field, ctx, g =>
    g.inList element items.length (Contribution.vector element header field ctx)
      (contributeAll none ctx.items items)
  | .array element items, field, ctx, g =>
    g.inList element items.length (Contribution.array element items.length field ctx)
      (contributeAll field ctx.elements items)
  | .map header keys values, field, ctx, g =>
    let g := g.enter (Contribution.map header field ctx)
    let g := if keys.length = 0 then g.markIncomplete else g
    let g := g.looping 0 .loopKeeping (contributeAll none ctx.mapKeys keys)
    let g := g.looping 1 .loopTaking (contributeAll none ctx.mapValues values)
    g.left
  | .object className header layout otherVersion parts, field, outer, g =>
    let ctx := outer.inClass className
    let g := Contribution.intoObject className header otherVersion field ctx g
    (contributeParts ctx layout.parts parts g).left

def contributeAll (field : Option String) (ctx : Context) :
    List Trace → Generator → Generator
  | [], g => g
  | trace :: traces, g => contributeAll field ctx traces (trace.contribute field ctx g)

/-- what the parts of an object add, a base below a node of its own -/
def contributeParts (ctx : Context) (parts : List Part) : List Trace → Generator → Generator
  | [], g => g
  | trace :: traces, g =>
    match parts with
    | [] => g
    | .base name :: parts =>
      let inner := ctx.inBase name
      let g := g.enter (Contribution.base name inner)
      contributeParts ctx parts traces (trace.contribute none inner g).left
    | .member own :: parts =>
      contributeParts ctx parts traces
        (trace.contribute (some own.name) (ctx.inMember own.name) g)

end

/-- what one part of an object adds -/
def contributePart (ctx : Context) (trace : Trace) : Part → Generator → Generator
  | .base name, g => (trace.contribute none (ctx.inBase name)
      (g.enter (Contribution.base name (ctx.inBase name)))).left
  | .member own, g => trace.contribute (some own.name) (ctx.inMember own.name) g

@[simp]
theorem contributeParts_cons (ctx : Context) (part : Part) (parts : List Part) (trace : Trace)
    (traces : List Trace) (g : Generator) :
    contributeParts ctx (part :: parts) (trace :: traces) g =
      contributeParts ctx parts traces (trace.contributePart ctx part g) := by
  cases part <;> rfl

mutual

/-- whether no list was empty, lists of numbers apart -/
def complete : Trace → Bool
  | .vector element _ items | .array element items =>
    element.primitive?.isSome || (!items.isEmpty && completeAll items)
  | .map _ keys values => !keys.isEmpty && (completeAll keys && completeAll values)
  | .object _ _ layout _ parts => completeParts layout.parts parts
  | _ => true

def completeAll : List Trace → Bool
  | [] => true
  | trace :: traces => trace.complete && completeAll traces

def completeParts (parts : List Part) : List Trace → Bool
  | [] => true
  | trace :: traces =>
    match parts with
    | [] => true
    | _ :: parts => trace.complete && completeParts parts traces

end

end Trace

/-! ## headers -/

/-- a header that a read passed over -/
structure Mark where
  /-- the place of the value that the header stands before -/
  path : List String
  /-- the node whose code passes over the header -/
  node : NodeKind
  length : Nat
deriving DecidableEq, Repr

namespace Trace

mutual

/-- the headers of a value and of all that it holds, in the order of reading; where a header is
left out by the surroundings, it counts as one of no bytes -/
def marks : Trace → Context → List Mark
  | .text .stdString header _, ctx =>
    [{ path := ctx.path, node := .field (ctx.nodeName ""), length := header }]
  | .head header _ _, ctx =>
    [{ path := ctx.path, node := .start (ctx.label "TObject" "model"), length := header }]
  | .time header _, ctx | .refArray header _ _, ctx =>
    [{ path := ctx.path, node := .prebuilt (ctx.nodeName ""), length := header }]
  | .vector _ header items, ctx =>
    { path := ctx.path, node := .field (ctx.nodeName ""), length := header } ::
      marksAll ctx.items items
  | .array _ items, ctx => marksAll ctx.elements items
  | .map header keys values, ctx =>
    { path := ctx.path, node := .field (ctx.nodeName ""), length := header } ::
      (marksAll ctx.mapKeys keys ++ marksAll ctx.mapValues values)
  | .object className header layout _ parts, outer =>
    let ctx := outer.inClass className
    { path := ctx.path, node := .dispatch (ctx.label className "dispatch"), length := header } ::
      marksParts ctx layout.parts parts
  | _, _ => []

def marksAll (ctx : Context) : List Trace → List Mark
  | [] => []
  | trace :: traces => trace.marks ctx ++ marksAll ctx traces

def marksParts (ctx : Context) (parts : List Part) : List Trace → List Mark
  | [] => []
  | trace :: traces =>
    match parts with
    | [] => []
    | part :: parts => trace.marks (part.context ctx) ++ marksParts ctx parts traces

end

end Trace

/-! ## the reads that traces are of -/

/-- the scan succeeds -/
def Scan.Takes {α : Type} (s : Scan α) (c : Cursor) (a : α) (d : Cursor) : Prop :=
  s.run c = (.ok a, d)

/-- the bytes of a text, after their length -/
def Scan.characters : Scan Bytes := do
  let short ← unsigned 1
  let length ← if short = 255 then unsigned 4 else pure short
  take length

/-- a header of so many bytes before a container; there is none unless the context says so -/
inductive HeaderBefore (ctx : Context) : Cursor → Nat → Cursor → Prop where
  | absent {c : Cursor} (off : ctx.header = false) : HeaderBefore ctx c 0 c
  | present {c d : Cursor} {header : VersionHeader} (on : ctx.header = true)
    (takes : Scan.versionHeader.Takes c header d) : HeaderBefore ctx c (d.pos - c.pos) d

/-- a header before a map, which goes on for another six bytes -/
inductive MapHeaderBefore (ctx : Context) : Cursor → Nat → Cursor → Prop where
  | absent {c : Cursor} (off : ctx.header = false) : MapHeaderBefore ctx c 0 c
  | present {c d e : Cursor} {header : VersionHeader} (on : ctx.header = true)
    (takes : Scan.versionHeader.Takes c header d) (further : (Scan.skip 6).Takes d () e) :
    MapHeaderBefore ctx c (d.pos - c.pos + 6) e

/-- the head of a `TObject`, if heads are written out -/
inductive HeadAt (ctx : Context) : Cursor → Nat → Nat × Nat → Cursor → Prop where
  | absent {c : Cursor} (off : ctx.objectHead = false) : HeadAt ctx c 0 (0, 0) c
  | present {c d : Cursor} {words : Nat × Nat} (on : ctx.objectHead = true)
    (takes : Scan.objectHead.Takes c words d) : HeadAt ctx c (d.pos - c.pos) words d

/-- references one after the other -/
inductive References : Cursor → List Int → Cursor → Prop where
  | nil {c : Cursor} : References c [] c
  | cons {c d e : Cursor} {first : Int} {rest : List Int}
    (takes : (Scan.signed 4).Takes c first d) (others : References d rest e) :
    References c (first :: rest) e

namespace Trace

section
variable (registry : Registry) (generating : Bool)

mutual

/-- the trace of a read of a value of a type, from one cursor to another; a decoder is not generated
for objects inside objects of their own class -/
inductive Reads : StreamType → Context → Cursor → Trace → Cursor → Prop where
  | number {p : Primitive} {ctx : Context} {c d : Cursor} {value : Value}
    (takes : p.scan.Takes c value d) : Reads (.primitive p) ctx c (.number p value) d
  | tstring {ctx : Context} {c d : Cursor} {bytes : Bytes}
    (takes : Scan.characters.Takes c bytes d) :
    Reads (.text .tstring) ctx c (.text .tstring 0 bytes) d
  | stdString {ctx : Context} {c d e : Cursor} {header : Nat} {bytes : Bytes}
    (before : HeaderBefore ctx c header d) (takes : Scan.characters.Takes d bytes e) :
    Reads (.text .stdString) ctx c (.text .stdString header bytes) e
  | head {ctx : Context} {c d : Cursor} {header unique bits : Nat}
    (at_ : HeadAt ctx c header (unique, bits) d) :
    Reads .object ctx c (.head header unique bits) d
  | datime {ctx : Context} {c d : Cursor} {packed : Nat}
    (takes : (Scan.unsigned 4).Takes c packed d) : Reads .datime ctx c (.datime packed) d
  | time {ctx : Context} {c d e : Cursor} {header : Nat} {milliseconds : Int}
    (before : HeaderBefore ctx c header d) (takes : (Scan.signed 8).Takes d milliseconds e) :
    Reads .time ctx c (.time header milliseconds) e
  | ref {ctx : Context} {c d e f : Cursor} {reference : Nat}
    (before : (Scan.skip 2).Takes c () d) (takes : (Scan.unsigned 4).Takes d reference e)
    (behind : (Scan.skip 6).Takes e () f) : Reads .ref ctx c (.ref reference) f
  | refArray {ctx : Context} {c d e f k l m : Cursor} {header : Nat} {name : Bytes}
    {refs : List Int} (before : HeaderBefore ctx c header d)
    (lead : (Scan.skip 10).Takes d () e) (named : Scan.characters.Takes e name f)
    (count : (Scan.signed 4).Takes f refs.length k) (gap : (Scan.skip 6).Takes k () l)
    (takes : References l refs m) : Reads .refArray ctx c (.refArray header name refs) m
  | vector {element : StreamType} {ctx : Context} {c d e f : Cursor} {header : Nat}
    {items : List Trace} (before : HeaderBefore ctx c header d)
    (count : (Scan.unsigned 4).Takes d items.length e)
    (all : ReadsAll element ctx.items e items f) :
    Reads (.vector element) ctx c (.vector element header items) f
  | array {element : StreamType} {count : UInt64} {ctx : Context} {c d : Cursor}
    {items : List Trace} (length : items.length = count.toNat)
    (all : ReadsAll element ctx.elements c items d) :
    Reads (.array element count) ctx c (.array element items) d
  | map {key value : StreamType} {ctx : Context} {c d e f k : Cursor} {header : Nat}
    {keys values : List Trace} (before : MapHeaderBefore ctx c header d)
    (count : (Scan.unsigned 4).Takes d keys.length e) (same : values.length = keys.length)
    (allKeys : ReadsAll key ctx.mapKeys e keys f) (allValues : ReadsAll value ctx.mapValues f values k) :
    Reads (.map key value) ctx c (.map header keys values) k
  | object {className : String} {ctx : Context} {c d e : Cursor} {header : VersionHeader}
    {latest layout : Layout} {parts : List Trace}
    (outside : generating = true → className ∉ ctx.breadcrumbs)
    (known : registry.latest? className = some latest)
    (takes : Scan.versionHeader.Takes c header d)
    (chosen : layout = (registry.get? className header.version).getD latest)
    (all : ReadsParts (ctx.inClass className) layout.parts d parts e) :
    Reads (.named className) ctx c
      (.object className (d.pos - c.pos) layout (layout.version ≠ latest.version) parts) e

/-- the traces of values of one type, one after the other -/
inductive ReadsAll : StreamType → Context → Cursor → List Trace → Cursor → Prop where
  | nil {type : StreamType} {ctx : Context} {c : Cursor} : ReadsAll type ctx c [] c
  | cons {type : StreamType} {ctx : Context} {c d e : Cursor} {trace : Trace} {traces : List Trace}
    (first : Reads type ctx c trace d) (rest : ReadsAll type ctx d traces e) :
    ReadsAll type ctx c (trace :: traces) e

/-- the traces of the parts of an object -/
inductive ReadsParts : Context → List Part → Cursor → List Trace → Cursor → Prop where
  | nil {ctx : Context} {c : Cursor} : ReadsParts ctx [] c [] c
  | cons {ctx : Context} {part : Part} {parts : List Part} {c d e : Cursor} {trace : Trace}
    {traces : List Trace} (first : Reads part.type (part.context ctx) c trace d)
    (rest : ReadsParts ctx parts d traces e) :
    ReadsParts ctx (part :: parts) c (trace :: traces) e

end

end

end Trace

end Baskets
