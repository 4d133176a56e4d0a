import Baskets.Form
import Baskets.Text.Quoted

/-!
# Nodes of generated decoders

A decoder is a tree of nodes.  A node holds code for before and after the code of its children, code
to be run once, declarations, and the part of the form that it fills.  Nodes are told apart by their
`NodeKind`, which is a role and a name: under one parent there is one node of a kind.
-/

namespace Baskets

/-- the role of a node, and the name that its place gave it -/
inductive NodeKind where
  /-- the root -/
  | top
  /-- reads the header of an object and settles on a layout -/
  | dispatch (name : String)
  /-- the object was written with another version than the newest -/
  | wrongVersion (name : String)
  /-- begins the members of a class -/
  | start (name : String)
  /-- the part of a base class -/
  | base (name : String)
  /-- a column with a form of its own making -/
  | prebuilt (name : String)
  /-- a column: leaf, list or record -/
  | field (name : String)
deriving DecidableEq, Repr, Inhabited

namespace NodeKind

/-- whether the node adds no column to that of its child -/
def isWrapper : NodeKind → Bool
  | .top | .dispatch _ | .wrongVersion _ | .start _ => true
  | .base _ | .prebuilt _ | .field _ => false

def isBase : NodeKind → Bool
  | .base _ => true
  | _ => false

def text : NodeKind → String
  | .top => "TOP"
  | .dispatch name => "dispatch-by-version " ++ name
  | .wrongVersion name => "wrong-instance-version " ++ name
  | .start name => "start-of-model " ++ name
  | .base name => "base-class " ++ name
  | .prebuilt name => name ++ ":prebuilt"
  | .field name => name

end NodeKind

/-- what a node holds besides its children -/
structure NodeInfo where
  kind : NodeKind
  /-- runs before the children -/
  pre : List String := []
  /-- runs after the children -/
  post : List String := []
  /-- runs once, before all entries -/
  init : List String := []
  /-- declarations -/
  header : List String := []
  /-- the form that the node fills, the part of its children left open -/
  form : Option Form := none
  /-- the member that the node fills -/
  field : Option String := none
deriving BEq, Repr, Inhabited

inductive Node where
  | mk (info : NodeInfo) (children : List Node)
deriving BEq, Repr, Inhabited

namespace Node

def info : Node → NodeInfo
  | .mk info _ => info

def children : Node → List Node
  | .mk _ children => children

def kind (node : Node) : NodeKind := node.info.kind

mutual

/-- the number of nodes -/
def size : Node → Nat
  | .mk _ children => 1 + sizeAll children

def sizeAll : List Node → Nat
  | [] => 0
  | node :: nodes => node.size + sizeAll nodes

end

/-! ## trees as text -/

def padding (depth : Nat) : String := String.ofList (List.replicate (2 * depth) ' ')

/-- the line of one kind of code, if the node has any -/
def codeLine (depth : Nat) (label : String) (code : List String) : String :=
  if code.isEmpty then ""
  else padding (depth + 1) ++ label ++ "=" ++ Text.quoted (String.join code) ++ "\n"

/-- the lines of a node without its children -/
def infoLines (depth : Nat) (info : NodeInfo) : String :=
  padding depth ++ info.kind.text ++
    (match info.field with
      | some name => " (" ++ name ++ ")"
      | none => "") ++
    (match info.form with
      | some form => " [" ++ form.className ++ "]"
      | none => "") ++ "\n" ++
    codeLine depth "header" info.header ++ codeLine depth "init" info.init ++
    codeLine depth "pre" info.pre ++ codeLine depth "post" info.post

mutual

def lines (depth : Nat) : Node → String
  | .mk info children => infoLines depth info ++ linesAll (depth + 1) children

def linesAll (depth : Nat) : List Node → String
  | [] => ""
  | node :: nodes => node.lines depth ++ linesAll depth nodes

end

/-- the tree with one line for each node and each kind of code, children further in -/
def text (node : Node) : String := node.lines 0

end Node

end Baskets
