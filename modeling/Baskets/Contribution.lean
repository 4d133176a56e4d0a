import Baskets.Generator

/-!
# What the types contribute to a decoder

For each kind of type, the node that reads its values: declarations, code and the part of the form
that is known without looking at elements or members.  The name of every column comes from the
place in the object (`Context.nodeName`), and the only facts taken from the bytes are the lengths of
the headers that are skipped.
-/

namespace Baskets.Contribution

def code (instructions : List Instruction) : List String := instructions.map Instruction.line

def declarations (outputs : List Output) : List String := outputs.map Output.text

/-- a column of numbers -/
def number (p : Primitive) (field : Option String) (ctx : Context) : NodeInfo :=
  let key := ctx.nodeName ""
  { kind := .field key
    field
    header := declarations [.data key p]
    pre := code [.number p key]
    form := some (Form.numbers p key) }

/-- a column of texts, after a header of `skipped` bytes -/
def text (skipped : Nat) (field : Option String) (ctx : Context) : NodeInfo :=
  let offsets := ctx.nodeName ""
  let chars := ctx.nodeName "chars"
  { kind := .field offsets
    field
    header := declarations [.offsets offsets ctx.indexFormat, .data chars .uint8]
    init := code [.zero offsets]
    pre := code (Instruction.skipAny skipped ++ [.text offsets chars])
    form := some (Form.text ctx.indexFormat offsets chars) }

/-! ## lists -/

/-- lists of any length: numbers go to a column, other elements are left to the children -/
def vector (element : StreamType) (skipped : Nat) (field : Option String) (ctx : Context) :
    NodeInfo :=
  let key := ctx.nodeName ""
  let opening := Instruction.skipAny skipped ++ [.length key]
  match element.primitive? with
  | some p =>
    let data := ctx.items.nodeName ""
    { kind := .field key
      field
      header := declarations [.offsets key ctx.indexFormat, .data data p]
      init := code [.zero key]
      pre := code (opening ++ [.numbers p data])
      form := some ((Form.list ctx.indexFormat (some (Form.numbers p data)) {}).withKey key) }
  | none =>
    { kind := .field key
      field
      header := declarations [.offsets key ctx.indexFormat]
      init := code [.zero key]
      pre := code (opening ++ [.loopTaking])
      post := code [.loopEnd]
      form := some ((Form.list ctx.indexFormat none {}).withKey key) }

/-- lists of one length; when the elements are left to a child, the child has the field -/
def array (element : StreamType) (count : Nat) (field : Option String) (ctx : Context) :
    NodeInfo :=
  let key := ctx.nodeName ""
  match element.primitive? with
  | some p =>
    let data := ctx.elements.nodeName ""
    { kind := .field key
      field
      header := declarations [.data data p]
      pre := code [.block count p data]
      form := some ((Form.regular count (some (Form.numbers p data)) {}).withKey key) }
  | none =>
    { kind := .field key
      pre := code [.loopTimes count]
      post := code [.loopEnd]
      form := some ((Form.regular count none {}).withKey key) }

/-- maps: lists of pairs, with one child for the keys and one for the values -/
def map (skipped : Nat) (field : Option String) (ctx : Context) : NodeInfo :=
  let key := ctx.nodeName ""
  let pair := (Form.record none [] {}).withParameter "__array__" "sorted_map"
  { kind := .field key
    field
    header := declarations [.offsets key ctx.indexFormat]
    init := code [.zero key]
    pre := code (Instruction.skipAny skipped ++ [.length key])
    form := some ((Form.list ctx.indexFormat (some pair) {}).withKey key) }

/-- puts a loop around the code of a node -/
def looped (start : Instruction) (info : NodeInfo) : NodeInfo :=
  { info with pre := start.line :: info.pre, post := info.post ++ code [.loopEnd] }

/-- puts a loop around the child `slot` of a node, if it is the last -/
def loopChild (id slot : Nat) (start : Instruction) (g : Generator) : Generator :=
  match (g.children id).drop slot with
  | [child] => g.modify child (looped start)
  | _ => g

/-! ## objects -/

/-- the header of an object -/
def dispatch (className : String) (skipped : Nat) (field : Option String) (ctx : Context) :
    NodeInfo :=
  { kind := .dispatch (ctx.label className "dispatch"), field, pre := code [.skip skipped] }

/-- the mark of another version than the newest -/
def wrongVersion (className : String) (ctx : Context) : NodeInfo :=
  { kind := .wrongVersion (ctx.label className "wrong") }

def start (className : String) (ctx : Context) : NodeInfo :=
  { kind := .start (ctx.label className "model") }

/-- the record of the bases and members -/
def record (className : String) (ctx : Context) : NodeInfo :=
  let key := ctx.nodeName ""
  { kind := .field key, form := some (Form.ofClass [] [] className key) }

/-- the part of a base class, read in its own context -/
def base (className : String) (ctx : Context) : NodeInfo :=
  { kind := .base (ctx.label className "base") }

/-- the start of the head of a `TObject` -/
def objectStart (skipped : Nat) (field : Option String) (ctx : Context) : NodeInfo :=
  { kind := .start (ctx.label "TObject" "model")
    field
    pre := code (Instruction.skipAny skipped) }

/-- the node of an object, entered down to the record that its bases and members go to -/
def intoObject (className : String) (skipped : Nat) (otherVersion : Bool) (field : Option String)
    (ctx : Context) (g : Generator) : Generator :=
  let g := g.enter (dispatch className skipped field ctx)
  let g := if otherVersion then g.descend (wrongVersion className ctx) else g
  (g.descend (start className ctx)).descend (record className ctx)

/-! ## classes with a layout of their own -/

/-- an object of one number -/
def oneNumber (className column : String) (p : Primitive) (instructions : String → List Instruction)
    (field : Option String) (ctx : Context) : NodeInfo :=
  let key := ctx.nodeName ""
  let data := ctx.nodeName column
  { kind := .prebuilt key
    field
    header := declarations [.data data p]
    pre := code (instructions data)
    form := some (Form.ofClass [column] [Form.numbers p data] className key) }

def datime : Option String → Context → NodeInfo :=
  oneNumber "TDatime" "fDatime" .uint32 fun data => [.number .uint32 data]

def time (skipped : Nat) : Option String → Context → NodeInfo :=
  oneNumber "TTime" "fMilliSec" .int64 fun data =>
    Instruction.skipAny skipped ++ [.number .int64 data]

def ref : Option String → Context → NodeInfo :=
  oneNumber "TRef" "ref" .uint32 fun data => [.skip 2, .number .uint32 data, .skip 6]

def refArray (skipped : Nat) (field : Option String) (ctx : Context) : NodeInfo :=
  let key := ctx.nodeName ""
  let name := ctx.nodeName "fName"
  let chars := ctx.nodeName "fName chars"
  let size := ctx.nodeName "fSize"
  let refs := ctx.nodeName "refs"
  let data := ctx.nodeName "refs data"
  let refsForm := (Form.list ctx.indexFormat (some (Form.numbers .int32 data)) {}).withKey refs
  { kind := .prebuilt key
    field
    header := declarations [.offsets name ctx.indexFormat, .data chars .uint8, .data size .int32,
      .offsets refs ctx.indexFormat, .data data .int32]
    init := code [.zero name, .zero refs]
    pre := code (Instruction.skipAny skipped ++ [.skip 10, .text name chars, .referenceCount size,
      .skip 6, .references refs data])
    form := some (Form.ofClass ["fName", "fSize", "refs"]
      [Form.text ctx.indexFormat name chars, Form.numbers .int32 size, refsForm] "TRefArray" key) }

end Baskets.Contribution
