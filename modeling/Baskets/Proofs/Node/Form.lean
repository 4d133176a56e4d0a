import Baskets.Node.Form
import Baskets.Proofs.Form.Paired
import Baskets.Proofs.Node.Present
import Baskets.Proofs.Node.Structural
import Mathlib.Data.List.Forall2

/-!
# Forms that come from trees

What the nodes of a tree hold of its form is put together by `Node.form`.  A record of the form
takes its names from one walk down the tree and its contents from another (`Node.Adds`), and both
walks go through the children in the same order; so a form never has a record with other than one
name for each content, as long as no node brings such a record along (`Node.form_put_together`).
-/

namespace Baskets

/-! ## names -/

namespace Node

variable {info : NodeInfo} {children : List Node} {node child : Node} {name : String} {form : Form}

/-- the member that a node fills: its own, or that of the one child of a list without a name -/
inductive Fills : Node → String → Prop where
  | own {info : NodeInfo} {children : List Node} {name : String}
    (named : info.field = some name) : Fills (.mk info children) name
  | borrowed {info : NodeInfo} {child : Node} {name : String} (unnamed : info.field = none)
    (list : info.form.elim false Form.isList = true) (inner : Fills child name) :
    Fills (.mk info [child]) name

theorem Fills.fieldName (fills : node.Fills name) : node.fieldName = .ok name := by
  induction fills with
  | own named =>
    unfold Node.fieldName
    rw [named]
  | borrowed unnamed list _ ih =>
    unfold Node.fieldName
    rw [unnamed]
    exact (if_pos list).trans ih

theorem fills_of_fieldName : (node : Node) → node.fieldName = .ok name → node.Fills name
  | .mk info children, found => by
    unfold Node.fieldName at found
    split at found
    · cases found
      exact .own ‹_›
    · split at found
      · split at found
        · exact .borrowed ‹_› ‹_› (fills_of_fieldName _ found)
        · cases found
      · cases found

/-! ## bases -/

/-- below a base class, at most one dispatch and then at most one mark of another version come
before the start of a model, with a record in it -/
inductive Leads (record : Node) : (dispatch version : Bool) → Node → Prop where
  | start {dispatch version : Bool} {info : NodeInfo} {name : String}
    (kind : info.kind = .start name) : Leads record dispatch version (.mk info [record])
  | version {dispatch : Bool} {info : NodeInfo} {name : String} {inner : Node}
    (kind : info.kind = .wrongVersion name) (rest : Leads record false false inner) :
    Leads record dispatch true (.mk info [inner])
  | dispatch {version : Bool} {info : NodeInfo} {name : String} {inner : Node}
    (kind : info.kind = .dispatch name) (rest : Leads record false version inner) :
    Leads record true version (.mk info [inner])

variable {dispatch version : Bool} {record : Node} {fields : Option (List String)}
  {contents : List Form} {tags : Tags}

theorem Leads.baseRecord (leads : Leads record dispatch version node)
    (made : record.form = .ok (.record fields contents tags)) :
    node.baseRecord dispatch version = .ok (fields, contents) := by
  induction leads with
  | start kind =>
    unfold Node.baseRecord
    rw [kind]
    show (record.form >>= _) = _
    rw [made]
    rfl
  | version kind _ ih =>
    unfold Node.baseRecord
    rw [kind]
    exact ih
  | dispatch kind _ ih =>
    unfold Node.baseRecord
    rw [kind]
    exact ih

theorem leads_of_baseRecord (dispatch version : Bool) : (node : Node) →
    node.baseRecord dispatch version = .ok (fields, contents) →
      ∃ record tags, Leads record dispatch version node ∧
        record.form = .ok (.record fields contents tags)
  | .mk info children, found => by
    unfold Node.baseRecord at found
    split at found
    · split at found
      · split at found
        · obtain ⟨record, tags, leads, made⟩ := leads_of_baseRecord _ _ _ found
          subst ‹dispatch = true›
          exact ⟨record, tags, .dispatch ‹_› leads, made⟩
        · cases found
      · split at found
        · obtain ⟨record, tags, leads, made⟩ := leads_of_baseRecord _ _ _ found
          subst ‹version = true›
          exact ⟨record, tags, .version ‹_› leads, made⟩
        · cases found
      · obtain ⟨form, made, found⟩ := bind_ok found
        split at found
        · cases found
          exact ⟨_, _, .start ‹_›, made⟩
        · cases found
      · cases found
    · split at found
      · split at found <;> cases found
      · split at found <;> cases found
      · cases found
      · cases found

/-! ## columns -/

/-- the columns that a node adds to a record: for a base class those of its record, and otherwise
one of its own -/
inductive Adds : Node → Columns → Prop where
  | base {info : NodeInfo} {inner record : Node} {fields : List String} {contents : List Form}
    {tags : Tags} (kind : info.kind.isBase = true) (leads : Leads record true true inner)
    (made : record.form = .ok (.record (some fields) contents tags)) :
    Adds (.mk info [inner]) { fields, contents }
  | field {node : Node} {name : String} {form : Form} (kind : node.kind.isBase = false)
    (fills : node.Fills name) (made : node.form = .ok form) :
    Adds node { fields := [name], contents := [form] }

variable {added : Columns}

theorem Adds.columns (adds : node.Adds added) : node.columns = .ok added := by
  cases adds with
  | base kind leads made =>
    unfold Node.columns
    rw [if_pos kind]
    show (_ >>= _) = _
    rw [leads.baseRecord made]
    rfl
  | @field _ name form kind fills made =>
    match node with
    | .mk info children =>
      have notBase : ¬info.kind.isBase = true := Bool.eq_false_iff.1 kind
      unfold Node.columns
      rw [if_neg notBase, fills.fieldName, made]
      rfl

theorem adds_of_columns (found : node.columns = .ok added) : node.Adds added := by
  match node with
  | .mk info children =>
    unfold Node.columns at found
    split at found
    · split at found
      · obtain ⟨⟨fields, contents⟩, start, found⟩ := bind_ok found
        obtain ⟨record, tags, leads, made⟩ := leads_of_baseRecord _ _ _ start
        split at found
        · rename_i same
          cases found
          cases same
          exact .base ‹_› leads made
        · cases found
      · cases found
    · obtain ⟨name, named, found⟩ := bind_ok found
      obtain ⟨form, made, found⟩ := bind_ok found
      cases found
      exact .field (Bool.eq_false_iff.2 ‹_›) (fills_of_fieldName _ named) made

/-- the columns of several nodes, side by side -/
def Columns.join (each : List Columns) : Columns where
  fields := each.flatMap Columns.fields
  contents := each.flatMap Columns.contents

theorem columnsAll_eq_ok_iff {nodes : List Node} : columnsAll nodes = .ok added ↔
    ∃ each, List.Forall₂ Adds nodes each ∧ added = .join each := by
  induction nodes generalizing added with
  | nil =>
    unfold columnsAll
    constructor
    · rintro ⟨⟩
      exact ⟨[], .nil, rfl⟩
    · rintro ⟨each, ⟨⟩, rfl⟩
      rfl
  | cons node nodes ih =>
    unfold columnsAll
    constructor
    · intro found
      obtain ⟨first, own, found⟩ := bind_ok found
      obtain ⟨rest, others, found⟩ := bind_ok found
      obtain ⟨each, all, rfl⟩ := ih.1 others
      cases found
      exact ⟨first :: each, .cons (adds_of_columns own) all, rfl⟩
    · rintro ⟨each, all, rfl⟩
      cases all with
      | cons first rest =>
        rw [first.columns, ih.2 ⟨_, rest, rfl⟩]
        rfl

/-! ## forms -/

/-- the node makes a record of its children -/
structure MakesRecord (info : NodeInfo) : Prop where
  plain : ∀ name, info.kind ≠ .prebuilt name
  column : info.kind.isWrapper = false
  own : ∀ form ∈ info.form, ∃ fields contents tags, form = .record fields contents tags

/-- a list that stands for no text, with one child -/
theorem form_of_list {list : Form} (plain : ∀ name, info.kind ≠ .prebuilt name)
    (own : info.form = some list) (isList : list.isList = true) (notText : list.isText = false) :
    (Node.mk info [child]).form = do return Form.graft (← child.form) list := by
  rw [Node.form, own]
  have branch : (if list.isText = true then (.ok list : Except Fault Form)
      else do return Form.graft (← child.form) list) = do return Form.graft (← child.form) list :=
    if_neg (by simp [notText])
  cases kind : info.kind with
  | prebuilt name => exact absurd kind (plain name)
  | _ =>
    cases list with
    | leaf | record => cases isList
    | list | regular => exact branch

theorem form_of_record (makes : MakesRecord info) :
    (Node.mk info children).form = do
      let columns ← columnsAll children
      return .record (some columns.fields) columns.contents (recordTags info) := by
  unfold Node.form
  have wrapper := makes.column
  cases kind : info.kind with
  | prebuilt name => exact absurd kind (makes.plain name)
  | top | dispatch | wrongVersion | start =>
    rw [kind] at wrapper
    cases wrapper
  | base | field =>
    cases own : info.form with
    | none => rfl
    | some form =>
      obtain ⟨fields, contents, tags, rfl⟩ := makes.own form own
      rfl

/-- the ways that a form comes about -/
inductive Made (info : NodeInfo) (children : List Node) : Form → Prop where
  /-- the node brings it along -/
  | whole {form : Form} (own : info.form = some form) : Made info children form
  /-- a list of which nothing was seen -/
  | unseen {list : Form} (own : info.form = some list) : Made info children (emptyListForm list)
  | listed {list inner : Form} {child : Node} (own : info.form = some list)
    (isList : list.isList = true) (one : children = [child]) (below : child.form = .ok inner) :
    Made info children (.graft inner list)
  | mapped {list : Form} {contents : List Form} (own : info.form = some list)
    (below : List.Forall₂ (fun child form => child.form = .ok form) children contents) :
    Made info children (mapForm list contents)
  | passed {form : Form} {child : Node} (one : children = [child])
    (below : child.form = .ok form) : Made info children form
  | record {each : List Columns} (below : List.Forall₂ Adds children each) :
    Made info children (.record (some (Columns.join each).fields) (Columns.join each).contents
      (recordTags info))

theorem forall₂_of_formAll {nodes : List Node} {forms : List Form}
    (found : formAll nodes = .ok forms) :
    List.Forall₂ (fun child form => child.form = .ok form) nodes forms := by
  induction nodes generalizing forms with
  | nil =>
    unfold formAll at found
    cases found
    exact .nil
  | cons node nodes ih =>
    unfold formAll at found
    obtain ⟨first, one, found⟩ := bind_ok found
    obtain ⟨rest, others, found⟩ := bind_ok found
    cases found
    exact .cons one (ih others)

theorem made_of_form (found : (Node.mk info children).form = .ok form) :
    Made info children form := by
  unfold Node.form at found
  split at found
  · cases found
  · cases found
    exact .whole ‹_›
  · split at found
    · cases found
      exact .whole ‹_›
    · cases found
  · split at found
    · rename_i isList
      split at found
      · rename_i list own
        rw [own] at isList
        split at found
        · cases found
          exact .whole own
        · split at found
          · cases found
            exact .unseen own
          · obtain ⟨inner, below, found⟩ := bind_ok found
            cases found
            exact .listed own isList rfl below
          · split at found
            · obtain ⟨contents, all, found⟩ := bind_ok found
              cases found
              exact .mapped own (forall₂_of_formAll all)
            · cases found
      · cases found
    · split at found
      · split at found
        · exact .passed rfl found
        · cases found
      · obtain ⟨columns, all, found⟩ := bind_ok found
        obtain ⟨each, below, rfl⟩ := columnsAll_eq_ok_iff.1 all
        cases found
        exact .record below

/-! ## trees without unpaired records -/

/-- no node of the tree brings along a form with a record that has other than one name for each
content -/
def Paired (node : Node) : Prop := ∀ part ∈ node.within, ∀ form ∈ part.info.form, form.Paired

instance : DecidablePred Paired := fun node =>
  inferInstanceAs (Decidable (∀ part ∈ node.within, ∀ form ∈ part.info.form, form.Paired))

theorem paired_mk : (mk info children).Paired ↔
    (∀ form ∈ info.form, form.Paired) ∧ ∀ child ∈ children, child.Paired := by
  refine List.forall_mem_cons.trans (and_congr_right' ?_)
  unfold Paired
  simp only [mem_withinAll]
  exact ⟨fun all child mem part inside => all part ⟨child, mem, inside⟩,
    fun all part ⟨child, mem, inside⟩ => all child mem part inside⟩

theorem size_lt_of_mem (mem : child ∈ children) : child.size < (mk info children).size := by
  suffices child.size ≤ sizeAll children by
    show child.size < 1 + sizeAll children
    omega
  induction mem with
  | head => exact Nat.le_add_right _ _
  | tail _ _ ih => exact Nat.le_add_left_of_le ih

theorem Leads.size_lt (leads : Leads record dispatch version node) : record.size < node.size := by
  induction leads with
  | start => exact size_lt_of_mem List.mem_cons_self
  | version _ _ ih | dispatch _ _ ih => exact Nat.lt_trans ih (size_lt_of_mem List.mem_cons_self)

theorem Leads.paired (leads : Leads record dispatch version node) (own : node.Paired) :
    record.Paired := by
  induction leads with
  | start => exact (paired_mk.1 own).2 _ List.mem_cons_self
  | version _ _ ih | dispatch _ _ ih => exact ih ((paired_mk.1 own).2 _ List.mem_cons_self)

/-- there is a name for each content -/
def Columns.Paired (columns : Columns) : Prop :=
  columns.fields.length = columns.contents.length ∧ ∀ form ∈ columns.contents, form.Paired

/-- what a node adds is paired if the forms of its tree are -/
theorem Adds.paired (adds : node.Adds added) (own : node.Paired)
    (below : ∀ part : Node, part.size ≤ node.size → part.Paired →
      ∀ form, part.form = .ok form → form.Paired) : added.Paired := by
  cases adds with
  | @base info inner record _ _ _ _ leads made =>
    have smaller : record.size < (mk info [inner]).size :=
      Nat.lt_trans leads.size_lt (size_lt_of_mem List.mem_cons_self)
    have start : inner.Paired := (paired_mk.1 own).2 inner List.mem_cons_self
    have record := Form.paired_record.1 (below _ (Nat.le_of_lt smaller) (leads.paired start) _ made)
    exact ⟨record.1 _ rfl, record.2⟩
  | field _ _ made =>
    exact ⟨rfl, fun form mem => List.mem_singleton.1 mem ▸ below node (Nat.le_refl _) own _ made⟩

theorem Columns.paired_join {each : List Columns} (all : ∀ columns ∈ each, columns.Paired) :
    (Columns.join each).Paired := by
  induction each with
  | nil => exact ⟨rfl, nofun⟩
  | cons first rest ih =>
    have own := all first List.mem_cons_self
    have others := ih fun columns mem => all columns (List.mem_cons_of_mem _ mem)
    constructor
    · show (first.fields ++ (join rest).fields).length =
        (first.contents ++ (join rest).contents).length
      rw [List.length_append, List.length_append, own.1, others.1]
    · exact List.forall_mem_append.2 ⟨own.2, others.2⟩

theorem paired_emptyListForm (own : form.Paired) : (emptyListForm form).Paired := by
  unfold emptyListForm
  split
  · exact own
  · cases form with
    | leaf | record => exact own
    | list => exact Form.paired_list.2 nofun
    | regular => exact Form.paired_regular.2 nofun

theorem paired_mapForm (own : form.Paired) (all : ∀ inner ∈ contents, inner.Paired) :
    (mapForm form contents).Paired := by
  have pairs (tags : Tags) : (Form.record none contents tags).Paired :=
    Form.paired_record.2 ⟨nofun, all⟩
  unfold mapForm
  split
  · cases form with
    | leaf | record => exact own
    | list => exact Form.paired_list.2 fun _ same => Option.some.inj same ▸ pairs _
    | regular => exact Form.paired_regular.2 fun _ same => Option.some.inj same ▸ pairs _
  · exact own

theorem exists_of_forall₂ {α β : Type} {r : α → β → Prop} {as : List α} {bs : List β} {b : β}
    (all : List.Forall₂ r as bs) (mem : b ∈ bs) : ∃ a ∈ as, r a b := by
  induction all with
  | nil => cases mem
  | cons first _ ih =>
    rcases List.mem_cons.1 mem with rfl | mem
    · exact ⟨_, List.mem_cons_self, first⟩
    · obtain ⟨a, among, rel⟩ := ih mem
      exact ⟨a, List.mem_cons_of_mem _ among, rel⟩

/-- a node keeps to paired forms if its children do, and all that stands below them -/
theorem Made.paired (made : Made info children form) (own : (mk info children).Paired)
    (below : ∀ part : Node, part.size < (mk info children).size → part.Paired →
      ∀ form, part.form = .ok form → form.Paired) : form.Paired := by
  obtain ⟨brought, inside⟩ := paired_mk.1 own
  have child {part : Node} {form : Form} (mem : part ∈ children) (made : part.form = .ok form) :
      form.Paired := below part (size_lt_of_mem mem) (inside part mem) form made
  cases made with
  | whole own => exact brought _ own
  | unseen own => exact paired_emptyListForm (brought _ own)
  | listed own isList one made =>
    subst one
    exact .grafted (Form.grafted_graft _ isList) (child List.mem_cons_self made)
  | mapped own made =>
    refine paired_mapForm (brought _ own) fun inner mem => ?_
    obtain ⟨part, among, made⟩ := exists_of_forall₂ made mem
    exact child among made
  | passed one made =>
    subst one
    exact child List.mem_cons_self made
  | record made =>
    have columns := Columns.paired_join fun added mem => by
      obtain ⟨part, among, adds⟩ := exists_of_forall₂ made mem
      exact adds.paired (inside part among) fun part smaller =>
        below part (Nat.lt_of_le_of_lt smaller (size_lt_of_mem among))
    exact Form.paired_record.2 ⟨fun _ same => Option.some.inj same ▸ columns.1, columns.2⟩

theorem paired_form (node : Node) (own : node.Paired) (form : Form)
    (found : node.form = .ok form) : form.Paired := by
  match node with
  | .mk info children =>
    exact (made_of_form found).paired own fun part _ own form found =>
      paired_form part own form found
termination_by node.size

/-- **How the form of a tree is put together.**  No unpaired record comes into it that no node
brings along.  A list with one child, other than a text and unless it is prebuilt, is the list it
was around the form of the child, at the bottom of all its lists.  A record has the columns that its
children add, from left to right. -/
theorem form_put_together (info : NodeInfo) (children : List Node) (form : Form) :
    ((mk info children).Paired → (mk info children).form = .ok form → form.Paired) ∧
    (∀ list child, (∀ name, info.kind ≠ .prebuilt name) → info.form = some list →
      list.isList = true → list.isText = false → children = [child] →
        ((mk info children).form = .ok form ↔
          ∃ inner, child.form = .ok inner ∧ list.Grafted inner form)) ∧
    (MakesRecord info → ((mk info children).form = .ok form ↔
      ∃ each, List.Forall₂ Adds children each ∧
        form = .record (some (Columns.join each).fields) (Columns.join each).contents
          (recordTags info))) := by
  refine ⟨fun own found => paired_form _ own form found, ?_, fun makes => ?_⟩
  · rintro list child plain own isList notText rfl
    rw [form_of_list plain own isList notText]
    constructor
    · intro found
      obtain ⟨inner, below, found⟩ := bind_ok found
      cases found
      exact ⟨inner, below, Form.grafted_graft _ isList⟩
    · rintro ⟨inner, below, grafted⟩
      rw [below, grafted.eq_graft isList]
      rfl
  · rw [form_of_record makes]
    constructor
    · intro found
      obtain ⟨columns, all, found⟩ := bind_ok found
      obtain ⟨each, below, rfl⟩ := columnsAll_eq_ok_iff.1 all
      cases found
      exact ⟨each, below, rfl⟩
    · rintro ⟨each, below, rfl⟩
      rw [columnsAll_eq_ok_iff.2 ⟨each, below, rfl⟩]
      rfl

/-- an array of lists, named by the lists -/
def arrayOfLists : Node :=
  .mk { kind := .field "node3", form := some (.regular 3 none {}) } [
    .mk { kind := .field "node4", form := some (.list .i64 (some (.leaf .float32 [] {})) {}),
          field := some "hits" } []]

/-- an object with that array, behind a base that was written with another version -/
def spliced : Node :=
  .mk { kind := .field "node0" } [
    .mk { kind := .base "Base" } [
      .mk { kind := .dispatch "Base" } [
        .mk { kind := .wrongVersion "Base" } [
          .mk { kind := .start "Base" } [
            .mk { kind := .field "node1" } [
              .mk { kind := .field "node2", form := some (.leaf .float64 [] {}),
                    field := some "fX" } []]]]]],
    arrayOfLists]

theorem form_put_together_spliced :
    (∃ form, spliced.form = .ok form ∧ form.Paired ∧
      ∃ each, List.Forall₂ Adds spliced.children each ∧
        (Columns.join each).fields = ["fX", "hits"] ∧
        form = .record (some (Columns.join each).fields) (Columns.join each).contents {}) ∧
    ∃ array inner, arrayOfLists.form = .ok array ∧
      (Form.regular 3 none {}).Grafted inner array := by
  let list : Form := .list .i64 (some (.leaf .float32 [] {})) {}
  let form : Form :=
    .record (some ["fX", "hits"]) [.leaf .float64 [] {}, .regular 3 (some list) {}] {}
  have array : arrayOfLists.form = .ok (.regular 3 (some list) {}) := by
    rw [form_eq_structural]
    rfl
  have made : spliced.form = .ok form := by
    rw [form_eq_structural]
    rfl
  obtain ⟨sound, -, columns⟩ := form_put_together { kind := .field "node0" } spliced.children form
  obtain ⟨each, adds, eq⟩ := (columns ⟨nofun, rfl, nofun⟩).1 made
  obtain ⟨inner, -, grafted⟩ := ((form_put_together arrayOfLists.info arrayOfLists.children
    (.regular 3 (some list) {})).2.1 _ _ nofun rfl rfl rfl rfl).1 array
  refine ⟨⟨form, made, sound (by decide) made, each, adds, ?_, eq⟩, _, inner, array, grafted⟩
  injection eq with names
  exact (Option.some.inj names).symm

end Node

end Baskets
