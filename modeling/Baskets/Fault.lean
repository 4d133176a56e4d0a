import Baskets.Text.Quoted

/-!
# What can go wrong

A `Fault` says why a basket, an object or a model could not be had, one constructor for each cause
and with the figures that belong to it; `Fault.message` is the only place that puts a cause into
words.  Which callers may recover from a fault is decided on the constructor, never on the words:
`Fault.ungeneratable` alone sends an object type back to plain reading.
-/

namespace Baskets

/-- the four ways in which a block of a basket may be compressed -/
inductive Algorithm where
  | zlib
  | lzma
  | lz4
  | zstd
deriving DecidableEq, Repr

/-- the name under which blocks are reported -/
def Algorithm.name : Algorithm → String
  | .zlib => "ZLIB"
  | .lzma => "LZMA"
  | .lz4 => "LZ4"
  | .zstd => "ZSTD"

/-- the library that undoes the algorithm -/
def Algorithm.codecName : Algorithm → String
  | .zlib => "zlib"
  | .lzma => "xz"
  | .lz4 => "lz4"
  | .zstd => "zstd"

/-- why a sequence of compressed blocks was refused -/
inductive BlockFault where
  /-- the tag of a compression method that is no longer in use -/
  | obsolete
  /-- a tag that names no method -/
  | unknownTag (tag : String)
  /-- fewer bytes than the payload is said to have -/
  | shortPayload (claimed available : Nat)
  /-- the bytes end inside a block header -/
  | shortHeader (offset size : Nat)
  /-- fewer bytes than the block is said to have -/
  | shortBlock (claimed remaining : Nat)
  /-- the checksum in front of an LZ4 block is cut off -/
  | shortChecksum
  /-- the codec refused the bytes -/
  | codec (algorithm : Algorithm)
  /-- a block of another length than its header says; `index` blocks came before it -/
  | blockLength (index : Nat) (algorithm : Algorithm) (compressed actual expected : Nat)
  /-- blocks that sum to another length than the record says -/
  | totalLength (actual expected : Nat)
deriving DecidableEq, Repr

/-- why bytes that are there do not make an object or a basket -/
inductive Malformation where
  | stepBack (count position : Nat)
  | keyTooShort (length : Int)
  | keyNegative (length : Int)
  | rangeOverflow (length : Nat)
  | borderNegative (lastOffset keyLength : Int)
  | borderPastPayload (border payload : Nat)
  | objectNegative (length : Int)
  | entriesNegative (count : Int)
  | footerRagged (bytes : Nat)
  | footerCount (found expected : Nat)
  | offsetBeforeKey (offset : Int)
  | noEntryOffsets (basket : Option Nat)
  | entryRange (start stop size : Nat)
  | arraySize (size : Int)
  /-- an object that does not end where its byte count says -/
  | byteCount (what : String) (expected actual : Nat)
deriving DecidableEq, Repr

/-- why an object type has no generated program -/
inductive Ungeneratable where
  /-- objects of the class can hold objects of the class, so no program has enough loops -/
  | selfContaining (className : String)
  /-- the members were written column by column -/
  | memberwise (what : String)
deriving DecidableEq, Repr

/-- why a tree of nodes has no form -/
inductive FormFault where
  /-- a prebuilt node without its form -/
  | noForm
  | leafChildren (count : Nat)
  | baseTuple
  | baseStart
  | baseClassForm (formClass : String)
  | unnamedField
  | childCount (count : Nat)
deriving DecidableEq, Repr

inductive Fault where
  /-- a file could not be had -/
  | io
  /-- the bytes end too early -/
  | underflow (offset need available : Nat)
  | block (cause : BlockFault)
  | malformed (cause : Malformation)
  /-- no layout is known for the class -/
  | unknownClass (name : String)
  /-- legal, but members written column by column are not read here -/
  | memberwise (what : String)
  /-- legal, but maps written pair by pair are not read here -/
  | pairwiseMap
  /-- legal and readable, but no program can be generated for it -/
  | ungeneratable (cause : Ungeneratable)
  /-- the stack of saved nodes was popped when it was empty -/
  | emptyStack
  /-- a builder of models gave up, with its own reason -/
  | build (reason : String)
  /-- text that is no form -/
  | json
  /-- the tree of nodes has no form, seen at the node of that name -/
  | derivation (node : String) (cause : FormFault)
deriving DecidableEq, Repr

/-! ## the words -/

def BlockFault.message : BlockFault → String
  | .obsolete => "unsupported compression algorithm: CS (obsolete ROOT algorithm)"
  | .unknownTag tag => "unrecognized compression algorithm: " ++ Text.quoted tag
  | .shortPayload claimed available =>
    s!"compressed payload claims {claimed} bytes but only {available} are available"
  | .shortHeader offset size => s!"truncated block header at byte {offset} of {size}"
  | .shortBlock claimed remaining =>
    s!"compressed block claims {claimed} bytes but only {remaining} remain"
  | .shortChecksum => "LZ4 block too small for checksum header"
  | .codec algorithm => algorithm.codecName
  | .blockLength index algorithm compressed actual expected =>
    s!"after {index} blocks, a {algorithm.name} block of {compressed} bytes decompressed to " ++
      s!"{actual} bytes, header expects {expected}"
  | .totalLength actual expected => s!"total decompressed length {actual} != expected {expected}"

def Malformation.message : Malformation → String
  | .stepBack count position => s!"cannot step back {count} bytes from {position}"
  | .keyTooShort length => s!"basket key length {length} is too short"
  | .keyNegative length => s!"negative key length {length}"
  | .rangeOverflow length => s!"range length too large: {length}"
  | .borderNegative lastOffset keyLength =>
    s!"basket border is negative (fLast={lastOffset}, fKeylen={keyLength})"
  | .borderPastPayload border payload =>
    s!"basket border {border} lies past the {payload} payload bytes"
  | .objectNegative length => s!"negative object length {length}"
  | .entriesNegative count => s!"negative entry count {count}"
  | .footerRagged bytes =>
    s!"entry-offset footer of {bytes} bytes is not a whole number of offsets"
  | .footerCount found expected =>
    s!"entry-offset footer holds {found} offsets, expected {expected}"
  | .offsetBeforeKey offset => s!"entry offset {offset} precedes the key"
  | .noEntryOffsets none => "object basket None has no entry offsets"
  | .noEntryOffsets (some number) => s!"object basket Some({number}) has no entry offsets"
  | .entryRange start stop size => s!"entry range {start}..{stop} outside {size} data bytes"
  | .arraySize size => s!"TRefArray has negative size {size}"
  | .byteCount what expected actual =>
    s!"{what}: expected to end at byte {expected}, ended at {actual}"

def Ungeneratable.message : Ungeneratable → String
  | .selfContaining className => s!"{className} can contain itself, so its depth is unbounded"
  | .memberwise what => s!"member-wise serialization of {what}"

def FormFault.message : FormFault → String
  | .noForm => "prebuilt node carries no form"
  | .leafChildren count => s!"NumpyArray node has {count} children"
  | .baseTuple => "base class derived a tuple"
  | .baseStart => "expected start-of-model below a base class"
  | .baseClassForm formClass => s!"base class derived a {formClass} instead of a record"
  | .unnamedField => "unnamed field is not a list wrapper"
  | .childCount count => s!"expected one child, found {count}"

def Fault.message : Fault → String
  | .io => "I/O error"
  | .underflow offset need available =>
    s!"unexpected end of buffer at offset {offset}, need {need} bytes, have {available}"
  | .block cause => "decompression error: " ++ cause.message
  | .malformed cause => "deserialization error: " ++ cause.message
  | .unknownClass name => "unknown class: " ++ name
  | .memberwise what => "not implemented: member-wise serialization of " ++ what
  | .pairwiseMap => "not implemented: std::map streamed object-wise"
  | .ungeneratable cause => "cannot generate decoder: " ++ cause.message
  | .emptyStack => "code generation error: pop_active_node on an empty stack"
  | .build reason => "code generation error: " ++ reason
  | .json => "form JSON error"
  | .derivation node cause =>
    "form derivation failed at node " ++ Text.quoted node ++ ": " ++ cause.message

/-! ## results -/

theorem bind_ok {ε α β : Type} {first : Except ε α} {rest : α → Except ε β} {b : β}
    (ran : first >>= rest = .ok b) : ∃ a, first = .ok a ∧ rest a = .ok b := by
  cases first with
  | error fault => cases ran
  | ok a => exact ⟨a, rfl, ran⟩

end Baskets
