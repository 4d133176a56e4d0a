import Baskets.Hash
import Baskets.Layout

/-!
# Where in an object a read takes place

A `Context` goes down with a read: the classes entered so far, the path of members and slots from
the top, and what the surroundings say about headers.  Nodes of a generated decoder are named after
the path and a role alone, so that the same place has the same name in every object of a type.
-/

namespace Baskets

/-- the number type of offsets in generated columns -/
inductive IndexFormat where
  | i32
  | u32
  | i64
deriving DecidableEq, Repr

/-- the name of the format in declarations of output -/
def IndexFormat.outputType : IndexFormat → String
  | .i32 => "int32"
  | .u32 => "uint32"
  | .i64 => "int64"

/-- the name of the format in forms -/
def IndexFormat.name : IndexFormat → String
  | .i32 => "i32"
  | .u32 => "u32"
  | .i64 => "i64"

/-- how many compiled models are kept -/
structure CacheConfig where
  maxEntries : Nat := 1024
  enabled : Bool := true
deriving DecidableEq, Repr

/-- keeps nothing -/
def CacheConfig.disabled : CacheConfig := { maxEntries := 0, enabled := false }

structure ReadOptions where
  /-- an object at the top has a header of its own -/
  header : Bool := true
  /-- the head of a `TObject` is written out -/
  objectHead : Bool := true
  indexFormat : IndexFormat := .i64
  cache : CacheConfig := {}
  /-- baskets may be decoded at the same time -/
  concurrent : Bool := true
deriving DecidableEq, Repr

structure Context where
  /-- the value to be read has a header of its own -/
  header : Bool
  objectHead : Bool
  indexFormat : IndexFormat
  /-- the classes being read, outermost first -/
  breadcrumbs : List String := []
  /-- the slots from the top to the value -/
  path : List String := []
deriving DecidableEq, Repr

namespace Context

/-- the context of an object at the top -/
def ofOptions (options : ReadOptions) : Context where
  header := options.header
  objectHead := options.objectHead
  indexFormat := options.indexFormat

def inClass (ctx : Context) (name : String) : Context :=
  { ctx with breadcrumbs := ctx.breadcrumbs ++ [name] }

def inSlot (ctx : Context) (slot : String) : Context := { ctx with path := ctx.path ++ [slot] }

def withHeader (ctx : Context) (header : Bool) : Context := { ctx with header }

/-! ### slots

Elements, keys and values stand in their list without headers, bases and members with them.
-/

/-- the elements of a vector -/
def items (ctx : Context) : Context := (ctx.inSlot "@items").withHeader false

/-- the elements of an array -/
def elements (ctx : Context) : Context := (ctx.inSlot "@elements").withHeader false

def mapKeys (ctx : Context) : Context := (ctx.inSlot "@keys").withHeader false

def mapValues (ctx : Context) : Context := (ctx.inSlot "@values").withHeader false

def inBase (ctx : Context) (base : String) : Context :=
  (ctx.inSlot ("@base " ++ base)).withHeader true

def inMember (ctx : Context) (member : String) : Context := (ctx.inSlot member).withHeader true

/-! ### names -/

/-- what is hashed to name a node: the path and the role -/
def keyBytes (ctx : Context) (role : String) : List UInt8 :=
  Hash.Form.list Hash.Form.text ctx.path ++ Hash.Form.text role

def key (ctx : Context) (role : String) : UInt64 := Hash.value (ctx.keyBytes role)

/-- the name of the node with that role at this place -/
def nodeName (ctx : Context) (role : String) : String := "node" ++ toString (ctx.key role).toNat

/-- the name of a wrapper: the class, and the name of the node with that role -/
def label (ctx : Context) (className role : String) : String :=
  className ++ " " ++ ctx.nodeName role

end Context

end Baskets
