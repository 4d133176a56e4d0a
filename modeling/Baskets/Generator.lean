import Baskets.Program

/-!
# Building the tree of a decoder

A `Generator` grows one tree of nodes while the objects of a type are read.  Nodes are numbered in
the order in which they come, the root is 0, and a node has a greater number than its parents; so
the depth of the nodes below one of them is less than the count of the numbers above its own, which
is what the two walks over the tree (`treeWithin`, `nodesWithin`) descend on.

A node is added below the *active* node, or below every node of the same kind as that one: the same
place of a type may be reached by several ways, and all of them get the node.  A place that has a
node of the kind already keeps the one it has, so an object that is read again adds nothing.  The
node that is added may bring children of its own; the whole tree is numbered in the order of its
text, even when nothing is attached.
-/

namespace Baskets

/-- a numbered node, with the numbers of its children -/
structure Slot where
  info : NodeInfo
  children : List Nat := []
deriving BEq, Repr, Inhabited

structure Generator where
  slots : Array Slot := #[{ info := { kind := .top } }]
  /-- the node below which nodes are added -/
  active : Nat := 0
  /-- the active nodes to return to, the last one first -/
  saved : List Nat := []
  /-- how many nodes found no place -/
  orphaned : Nat := 0
  /-- something in the entry was too empty to show what it could hold -/
  incomplete : Bool := false
deriving BEq, Repr, Inhabited

namespace Slot

/-- the numbers of trees that are laid out one after the other from `next` on -/
def numbers : Nat → List Node → List Nat
  | _, [] => []
  | next, node :: nodes => next :: numbers (next + node.size) nodes

mutual

/-- a tree laid out from `next` on, every node before its children -/
def ofNode (next : Nat) : Node → List Slot
  | .mk info children =>
    { info, children := numbers (next + 1) children } :: ofNodes (next + 1) children

def ofNodes (next : Nat) : List Node → List Slot
  | [] => []
  | node :: nodes => ofNode next node ++ ofNodes (next + node.size) nodes

end

mutual

theorem length_ofNode (next : Nat) : (node : Node) → (ofNode next node).length = node.size
  | .mk info children => by simp [ofNode, Node.size, length_ofNodes (next + 1) children]; omega

theorem length_ofNodes (next : Nat) :
    (nodes : List Node) → (ofNodes next nodes).length = Node.sizeAll nodes
  | [] => rfl
  | node :: nodes => by
    simp [ofNodes, Node.sizeAll, length_ofNode next node, length_ofNodes (next + node.size) nodes]

end

end Slot

namespace Generator

variable (g : Generator)

def info? (id : Nat) : Option NodeInfo := g.slots[id]?.map (·.info)

def children (id : Nat) : List Nat := (g.slots[id]?.map (·.children)).getD []

/-- whether the node is of that kind -/
def hasKind (kind : NodeKind) (id : Nat) : Bool := (g.info? id).any fun info => info.kind = kind

/-! ## walks -/

/-- the tree below a node, down to some depth -/
def treeWithin : (depth id : Nat) → Node
  | 0, id => .mk ((g.info? id).getD default) []
  | depth + 1, id => .mk ((g.info? id).getD default) ((g.children id).map (treeWithin depth))

/-- the tree below a node -/
def tree (id : Nat) : Node := g.treeWithin (g.slots.size - id) id

/-- the tree below the root -/
def node : Node := g.tree 0

/-- the nodes of a kind below a node, down to some depth; none below one that was found -/
def nodesWithin (kind : NodeKind) : (depth id : Nat) → List Nat
  | 0, id => if g.hasKind kind id then [id] else []
  | depth + 1, id =>
    if g.hasKind kind id then [id] else (g.children id).flatMap (nodesWithin kind depth)

/-- the first nodes of a kind on every way down from the root -/
def nodesOf (kind : NodeKind) : List Nat := (g.nodesWithin kind g.slots.size 0).eraseDups

/-- the first child of that kind -/
def childOf? (kind : NodeKind) (id : Nat) : Option Nat := (g.children id).find? (g.hasKind kind)

/-! ## growing -/

/-- changes what a node holds -/
def modify (id : Nat) (f : NodeInfo → NodeInfo) : Generator :=
  { g with slots := g.slots.modify id fun slot => { slot with info := f slot.info } }

/-- puts a child behind the children that a node has -/
def attach (child id : Nat) : Generator :=
  { g with
    slots := g.slots.modify id fun slot => { slot with children := slot.children ++ [child] } }

/-- numbers the nodes of a tree -/
def layOut (node : Node) : Generator :=
  { g with slots := g.slots ++ (Slot.ofNode g.slots.size node).toArray }

/-- adds a tree below the first nodes of kind `parent` on every way down from the root, and gives
the number under which the tree is found; nothing goes below its own kind -/
def addUnder (node : Node) (parent : NodeKind) : Nat × Generator :=
  let places := if parent = node.kind then [] else g.nodesOf parent
  let vacant := places.filter fun place => (g.childOf? node.kind place).isNone
  let id := g.slots.size
  let grown := vacant.foldl (fun g place => g.attach id place) (g.layOut node)
  if places.isEmpty then (id, { grown with orphaned := g.orphaned + 1 })
  else if vacant.isEmpty then ((places.findSome? (g.childOf? node.kind)).getD id, grown)
  else (id, grown)

/-- adds a tree below the nodes of the same kind as the active node -/
def add (node : Node) : Nat × Generator :=
  g.addUnder node (((g.info? g.active).map (·.kind)).getD .top)

/-! ## the active node -/

def activate (id : Nat) : Generator := { g with active := id }

/-- remembers the active node and makes another one active -/
def push (id : Nat) : Generator := { g with active := id, saved := g.active :: g.saved }

/-- adds a node and makes it active -/
def descend (info : NodeInfo) : Generator :=
  let (id, grown) := g.add (.mk info [])
  grown.activate id

/-- adds a node and makes it active until the next `pop` -/
def enter (info : NodeInfo) : Generator :=
  let (id, grown) := g.add (.mk info [])
  grown.push id

/-- returns to the active node remembered last -/
def pop : Except Fault Generator :=
  match g.saved with
  | id :: saved => .ok { g with active := id, saved }
  | [] => .error .emptyStack

/-- returns to the root and forgets the rest -/
def reset : Generator := { g with active := 0, saved := [] }

/-- prepares for the next entry -/
def beginEntry : Generator := { g.reset with incomplete := false }

def markIncomplete : Generator := { g with incomplete := true }

def model : Except Fault Model := Model.ofNode g.node

end Generator

end Baskets
