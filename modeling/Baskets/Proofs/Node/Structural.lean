import Baskets.Node.Form

/-!
# Forms by structural recursion

`Node.form` goes from a column back to the node of the column, so it does not recurse on the parts
of a node, and it cannot be evaluated on a given tree.  Here the same form is made with recursion on
the parts alone; the two are equal on every tree (`Node.form_eq_structural`).
-/

namespace Baskets.Node

namespace Structural

mutual

/-- the form of a node -/
def form : Node → Except Fault Form
  | .mk info children =>
    match info.kind, info.form with
    | .prebuilt _, none => fault info .noForm
    | .prebuilt _, some form => .ok form
    | _, some (.leaf primitive shape tags) =>
      if children.isEmpty then .ok (.leaf primitive shape tags)
      else fault info (.leafChildren children.length)
    | kind, own =>
      if (own.elim false Form.isList) then
        match own with
        | some list =>
          if list.isText then .ok list
          else
            match children with
            | [] => .ok (emptyListForm list)
            | [child] => do return Form.graft (← form child) list
            | children =>
              if children.length = 2 ∧ list.isMap then do
                return mapForm list (← formAll children)
              else fault info (.childCount children.length)
        | none => fault info .noForm
      else if kind.isWrapper then
        match children with
        | [child] => form child
        | children => fault info (.childCount children.length)
      else do
        let columns ← columnsAll children
        return .record (some columns.fields) columns.contents (recordTags info)

/-- the forms of some nodes -/
def formAll : List Node → Except Fault (List Form)
  | [] => .ok []
  | node :: nodes => do
    let first ← form node
    return first :: (← formAll nodes)

/-- the columns that some nodes add to a record: a base the fields of its record, any other node a
field of its own -/
def columnsAll : List Node → Except Fault Columns
  | [] => .ok {}
  | node :: nodes => do
    let first ← (if node.info.kind.isBase then baseColumns node
      else do
        let name ← fieldName node
        return { fields := [name], contents := [← form node] } : Except Fault Columns)
    let rest ← columnsAll nodes
    return { fields := first.fields ++ rest.fields, contents := first.contents ++ rest.contents }

/-- the columns that a base adds -/
def baseColumns : Node → Except Fault Columns
  | .mk info children =>
    match children with
    | [child] => do
      match ← baseRecord true true child with
      | (some fields, contents) => return { fields, contents }
      | (none, _) => fault info .baseTuple
    | children => fault info (.childCount children.length)

/-- the record at the start of a base class -/
def baseRecord (dispatch version : Bool) : Node → Except Fault (Option (List String) × List Form)
  | .mk info children =>
    match children with
    | [child] =>
      match info.kind with
      | .dispatch _ =>
        if dispatch then baseRecord false version child else fault info .baseStart
      | .wrongVersion _ =>
        if version then baseRecord false false child else fault info .baseStart
      | .start _ => do
        match ← form child with
        | .record fields contents _ => return (fields, contents)
        | other => fault info (.baseClassForm other.className)
      | _ => fault info .baseStart
    | children =>
      match info.kind with
      | .dispatch _ =>
        if dispatch then fault info (.childCount children.length) else fault info .baseStart
      | .wrongVersion _ =>
        if version then fault info (.childCount children.length) else fault info .baseStart
      | .start _ => fault info (.childCount children.length)
      | _ => fault info .baseStart

end

end Structural

mutual

theorem form_eq_structural : (node : Node) → node.form = Structural.form node
  | .mk info [] => by
    have columns := columnsAll_eq_structural []
    unfold form Structural.form
    generalize columnsAll [] = made at columns ⊢
    subst columns
    rfl
  | .mk info [child] => by
    have own := form_eq_structural child
    have columns := columnsAll_eq_structural [child]
    unfold form Structural.form
    dsimp only
    generalize child.form = inner at own ⊢
    generalize columnsAll [child] = made at columns ⊢
    subst own columns
    rfl
  | .mk info (first :: second :: rest) => by
    have forms := formAll_eq_structural (first :: second :: rest)
    have columns := columnsAll_eq_structural (first :: second :: rest)
    unfold form Structural.form
    dsimp only
    generalize formAll (first :: second :: rest) = all at forms ⊢
    generalize columnsAll (first :: second :: rest) = made at columns ⊢
    subst forms columns
    rfl

theorem formAll_eq_structural : (nodes : List Node) → formAll nodes = Structural.formAll nodes
  | [] => by
    unfold formAll Structural.formAll
    rfl
  | node :: nodes => by
    unfold formAll Structural.formAll
    rw [form_eq_structural node, formAll_eq_structural nodes]

theorem columnsAll_eq_structural : (nodes : List Node) →
    columnsAll nodes = Structural.columnsAll nodes
  | [] => by
    unfold columnsAll Structural.columnsAll
    rfl
  | .mk info children :: nodes => by
    unfold columnsAll Structural.columnsAll
    rw [columnsAll_eq_structural nodes]
    congr 1
    unfold columns
    show _ = if info.kind.isBase = true then _ else _
    split
    · match children with
      | [] =>
        unfold Structural.baseColumns
        rfl
      | [child] =>
        have record := baseRecord_eq_structural true true child
        unfold Structural.baseColumns
        dsimp only
        generalize child.baseRecord true true = start at record ⊢
        subst record
        rfl
      | first :: second :: rest =>
        unfold Structural.baseColumns
        rfl
    · rw [form_eq_structural (.mk info children)]

theorem baseRecord_eq_structural (dispatch version : Bool) : (node : Node) →
    node.baseRecord dispatch version = Structural.baseRecord dispatch version node
  | .mk info [] => by
    unfold baseRecord Structural.baseRecord
    rfl
  | .mk info [child] => by
    have own := form_eq_structural child
    have other := baseRecord_eq_structural false version child
    have last := baseRecord_eq_structural false false child
    unfold baseRecord Structural.baseRecord
    dsimp only
    generalize child.form = inner at own ⊢
    generalize child.baseRecord false version = below at other ⊢
    generalize child.baseRecord false false = lowest at last ⊢
    subst own other last
    rfl
  | .mk info (first :: second :: rest) => by
    unfold baseRecord Structural.baseRecord
    rfl

end

end Baskets.Node
