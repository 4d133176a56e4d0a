import Baskets.Fault
import Baskets.Node

/-!
# The form of a tree of nodes

`Node.form` puts together what a tree of nodes fills.  A prebuilt node and a leaf bring their form
along; a list takes the form of its one child to the bottom of its own, a map those of its keys and
values; a wrapper has the form of its one child.  Every other node is a record of its children, to
which a base class adds the fields of its record instead of a field of its own.
-/

namespace Baskets.Node

def fault {α : Type} (info : NodeInfo) (cause : FormFault) : Except Fault α :=
  .error (.derivation info.kind.text cause)

/-- the member that a node fills; a list without a name passes on that of its one child -/
def fieldName : Node → Except Fault String
  | .mk info children =>
    match info.field with
    | some name => .ok name
    | none =>
      if (info.form.elim false Form.isList) then
        match children with
        | [child] => child.fieldName
        | children => fault info (.childCount children.length)
      else fault info .unnamedField

/-- the fields of a record and what they hold -/
structure Columns where
  fields : List String := []
  contents : List Form := []

/-- the form of a map whose keys and values have these forms -/
def mapForm (form : Form) (contents : List Form) : Form :=
  match form.content? with
  | some (.record _ _ tags) => form.withContent (some (.record none contents tags))
  | _ => form

/-- the form of a list without children: a content of numbers stays, any other was never seen -/
def emptyListForm (form : Form) : Form :=
  match form.content? with
  | some (.leaf ..) => form
  | _ => form.withContent none

/-- the tags of a record node -/
def recordTags (info : NodeInfo) : Tags :=
  match info.form with
  | some (.record _ _ tags) => tags
  | _ => {}

mutual

def form : Node → Except Fault Form
  | .mk info children =>
    match info.kind, info.form with
    | .prebuilt _, none => fault info .noForm
    | .prebuilt _, some form => .ok form
    | _, some (.leaf primitive shape tags) =>
      if children.isEmpty then .ok (.leaf primitive shape tags)
      else fault info (.leafChildren children.length)
    | kind, own =>
      if (own.elim false Form.isList) then
        match own with
        | some list =>
          if list.isText then .ok list
          else
            match children with
            | [] => .ok (emptyListForm list)
            | [child] => do return Form.graft (← child.form) list
            | children =>
              if children.length = 2 ∧ list.isMap then do
                return mapForm list (← formAll children)
              else fault info (.childCount children.length)
        | none => fault info .noForm
      else if kind.isWrapper then
        match children with
        | [child] => child.form
        | children => fault info (.childCount children.length)
      else do
        let columns ← columnsAll children
        return .record (some columns.fields) columns.contents (recordTags info)

/-- the forms of some nodes, from left to right -/
def formAll : List Node → Except Fault (List Form)
  | [] => .ok []
  | node :: nodes => do
    let form ← node.form
    return form :: (← formAll nodes)

/-- the columns that some nodes add to a record, from left to right -/
def columnsAll : List Node → Except Fault Columns
  | [] => .ok {}
  | node :: nodes => do
    let first ← node.columns
    let rest ← columnsAll nodes
    return { fields := first.fields ++ rest.fields, contents := first.contents ++ rest.contents }

/-- the columns that one node adds to a record -/
def columns : Node → Except Fault Columns
  | .mk info children =>
    if info.kind.isBase then
      match children with
      | [child] => do
        match ← child.baseRecord true true with
        | (some fields, contents) => return { fields, contents }
        | (none, _) => fault info .baseTuple
      | children => fault info (.childCount children.length)
    else do
      let name ← fieldName (.mk info children)
      return { fields := [name], contents := [← (Node.mk info children).form] }

/-- the record at the start of a base class, below at most one dispatch and then at most one mark of
another version -/
def baseRecord (dispatch version : Bool) : Node → Except Fault (Option (List String) × List Form)
  | .mk info children =>
    match children with
    | [child] =>
      match info.kind with
      | .dispatch _ =>
        if dispatch then child.baseRecord false version else fault info .baseStart
      | .wrongVersion _ =>
        if version then child.baseRecord false false else fault info .baseStart
      | .start _ => do
        match ← child.form with
        | .record fields contents _ => return (fields, contents)
        | other => fault info (.baseClassForm other.className)
      | _ => fault info .baseStart
    | children =>
      match info.kind with
      | .dispatch _ =>
        if dispatch then fault info (.childCount children.length) else fault info .baseStart
      | .wrongVersion _ =>
        if version then fault info (.childCount children.length) else fault info .baseStart
      | .start _ => fault info (.childCount children.length)
      | _ => fault info .baseStart

end

end Baskets.Node
