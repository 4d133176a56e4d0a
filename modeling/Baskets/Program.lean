import Baskets.Instruction
import Baskets.Node.Form

/-!
# Programs of generated decoders

A tree of nodes becomes a program by writing down the code of its nodes in the order of the tree:
declarations and initial code node by node, the code for an entry with that of the children between
the two parts of the node's own.  A `Model` is a tree with its program and its form; there is no
model for a tree without a form.
-/

namespace Baskets

/-- the three parts of a program -/
structure Program where
  header : String
  /-- runs once -/
  init : String
  /-- runs for every entry -/
  code : String
deriving DecidableEq, Repr

namespace Node

mutual

/-- what stands in the nodes, one after the other, a node before its children -/
def inOrder (part : NodeInfo → List String) : Node → String
  | .mk info children => String.join (part info) ++ inOrderAll part children

def inOrderAll (part : NodeInfo → List String) : List Node → String
  | [] => ""
  | node :: nodes => node.inOrder part ++ inOrderAll part nodes

end

mutual

/-- the code for one entry -/
def code : Node → String
  | .mk info children => String.join info.pre ++ codeAll children ++ String.join info.post

def codeAll : List Node → String
  | [] => ""
  | node :: nodes => node.code ++ codeAll nodes

end

def program (node : Node) : Program where
  header := node.inOrder (·.header)
  init := node.inOrder (·.init)
  code := node.code

end Node

/-- the whole program, with its inputs and the loop over the entries -/
def Program.source (program : Program) : String :=
  "input stream\ninput byteoffsets\ninput bytestops\n" ++ program.header ++ "\n" ++ program.init ++
    "\n0 do\nbyteoffsets I-> stack\nstream seek\n" ++ program.code ++ "\nloop\n"

/-- a tree of nodes, its program and its form -/
structure Model where
  node : Node
  program : Program
  form : Form
deriving BEq, Repr

def Model.ofNode (node : Node) : Except Fault Model := do
  return { node, program := node.program, form := ← node.form }

end Baskets
