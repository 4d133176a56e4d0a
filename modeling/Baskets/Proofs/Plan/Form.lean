import Baskets.Proofs.Plan.Whole

/-!
# The form of a type

`Registry.formOf` is the form of a type as the type and the layouts have it, without any nodes: what
is read into one column is a leaf, a list is a list of the form of its elements, a map a list of
pairs, and an object a record of its members, behind the fields of its bases.  The form that the
tree of the type puts together is the same (`Plan.form_node`), and so the model of a generator has
this form as soon as some entry was complete.
-/

namespace Baskets

/-! ## from the type alone -/

/-- the fields of a record, with what they hold -/
def Form.columns : Form → List (String × Form)
  | .record (some fields) contents _ => fields.zip contents
  | _ => []

@[simp] theorem Form.columns_ofClass (columns : List (String × Form)) (className key : String) :
    (Form.ofClass (columns.map Prod.fst) (columns.map Prod.snd) className key).columns =
      columns := by
  show (columns.map Prod.fst).zip (columns.map Prod.snd) = columns
  rw [← List.unzip_fst, ← List.unzip_snd, List.zip_unzip]

/-- the fields that a part adds to an object, when its own values have this form -/
def Part.columns (form : Form) : Part → List (String × Form)
  | .base _ => form.columns
  | .member own => [(own.name, form)]

namespace Registry

variable (registry : Registry) (format : IndexFormat)

/-- the form of a type at a path, inside objects of the classes seen so far -/
def formOf : StreamType → (seen path : List String) → Form
  | .primitive p, _, path => Form.numbers p (Place.name (path, ""))
  | .text _, _, path => Form.text format (Place.name (path, "")) (Place.name (path, "chars"))
  | .object, _, path => Form.ofClass [] [] "TObject" (Place.name (path, ""))
  | .datime, _, path =>
    Form.ofClass ["fDatime"] [Form.numbers .uint32 (Place.name (path, "fDatime"))] "TDatime"
      (Place.name (path, ""))
  | .time, _, path =>
    Form.ofClass ["fMilliSec"] [Form.numbers .int64 (Place.name (path, "fMilliSec"))] "TTime"
      (Place.name (path, ""))
  | .ref, _, path =>
    Form.ofClass ["ref"] [Form.numbers .uint32 (Place.name (path, "ref"))] "TRef"
      (Place.name (path, ""))
  | .refArray, _, path =>
    let name := Form.text format (Place.name (path, "fName")) (Place.name (path, "fName chars"))
    let refs := Form.numbers .int32 (Place.name (path, "refs data"))
    Form.ofClass ["fName", "fSize", "refs"]
      [name, Form.numbers .int32 (Place.name (path, "fSize")),
        .list format (some refs) { key := Place.name (path, "refs") }]
      "TRefArray" (Place.name (path, ""))
  | .vector element, seen, path =>
    .list format (some (formOf element seen (path ++ ["@items"]))) { key := Place.name (path, "") }
  | .array element count, seen, path =>
    .regular count.toNat (some (formOf element seen (path ++ ["@elements"])))
      { key := Place.name (path, "") }
  | .map key value, seen, path =>
    let pair := [formOf key seen (path ++ ["@keys"]), formOf value seen (path ++ ["@values"])]
    .list format (some (.record none pair { parameters := [("__array__", .text "sorted_map")] }))
      { key := Place.name (path, "") }
  | .named name, seen, path =>
    let columns := (registry.partsIn seen name).attach.flatMap fun part =>
      part.val.columns (formOf part.val.type (seen ++ [name]) (path ++ [part.val.slot]))
    Form.ofClass (columns.map Prod.fst) (columns.map Prod.snd) name (Place.name (path, ""))
termination_by type seen => (registry.unseen seen, sizeOf type)
decreasing_by
  · exact .right _ (by simp)
  · exact .right _ (by rw [StreamType.array.sizeOf_spec]; omega)
  · exact .right _ (by rw [StreamType.map.sizeOf_spec]; omega)
  · exact .right _ (by rw [StreamType.map.sizeOf_spec]; omega)
  · exact .left _ _ (unseen_lt_of_mem_partsIn part.property)

/-- the fields that a part adds to an object of the class -/
def partColumns (seen path : List String) (part : Part) : List (String × Form) :=
  part.columns (registry.formOf format part.type seen (path ++ [part.slot]))

theorem formOf_named (name : String) (seen path : List String) :
    registry.formOf format (.named name) seen path =
      let columns := (registry.partsIn seen name).flatMap
        (registry.partColumns format (seen ++ [name]) path)
      Form.ofClass (columns.map Prod.fst) (columns.map Prod.snd) name (Place.name (path, "")) := by
  rw [formOf]
  have parts := List.attach_map_val (l := registry.partsIn seen name)
    (f := registry.partColumns format (seen ++ [name]) path)
  have columns := congrArg List.flatten parts
  exact congrArg (fun columns : List (String × Form) => Form.ofClass (columns.map Prod.fst)
    (columns.map Prod.snd) name (Place.name (path, ""))) columns

end Registry

/-! ## from nodes -/

namespace Node

variable {info : NodeInfo} {child second : Node} {children : List Node} {inner other : Form}
  {key label : String} {tags : Tags}

@[simp]
theorem form_looped (start : Instruction) (node : Node) : (node.looped start).form = node.form := by
  cases node with
  | mk info children =>
    show (Node.mk (Contribution.looped start info) children).form = _
    unfold Node.form
    rfl

theorem form_prebuilt (kind : info.kind = .prebuilt key) (own : info.form = some inner) :
    (Node.mk info children).form = .ok inner := by
  unfold Node.form
  rw [kind, own]

theorem form_numbers (kind : info.kind = .field key) {p : Primitive} {column : String}
    (own : info.form = some (.numbers p column)) :
    (Node.mk info []).form = .ok (.numbers p column) := by
  unfold Node.form
  rw [kind, own]
  rfl

theorem form_text (kind : info.kind = .field key) {format : IndexFormat} {offsets chars : String}
    (own : info.form = some (.text format offsets chars)) :
    (Node.mk info children).form = .ok (.text format offsets chars) := by
  unfold Node.form
  rw [kind, own]
  rfl

theorem form_numbersList (kind : info.kind = .field key) {format : IndexFormat} {p : Primitive}
    {column : String}
    (own : info.form = some (.list format (some (.numbers p column)) { key := some key })) :
    (Node.mk info []).form = .ok (.list format (some (.numbers p column)) { key := some key }) := by
  unfold Node.form
  rw [kind, own]
  rfl

theorem form_numbersRegular (kind : info.kind = .field key) {size : Nat} {p : Primitive}
    {column : String}
    (own : info.form = some (.regular size (some (.numbers p column)) { key := some key })) :
    (Node.mk info []).form = .ok (.regular size (some (.numbers p column)) { key := some key }) := by
  unfold Node.form
  rw [kind, own]
  rfl

theorem form_list (kind : info.kind = .field key) (below : child.form = .ok inner)
    {format : IndexFormat} (own : info.form = some (.list format none { key := some key })) :
    (Node.mk info [child]).form = .ok (.list format (some inner) { key := some key }) := by
  unfold Node.form
  rw [kind, own]
  show (do return Form.graft (← child.form) _) = _
  rw [below]
  rfl

theorem form_regular (kind : info.kind = .field key) (below : child.form = .ok inner) {size : Nat}
    (own : info.form = some (.regular size none { key := some key })) :
    (Node.mk info [child]).form = .ok (.regular size (some inner) { key := some key }) := by
  unfold Node.form
  rw [kind, own]
  show (do return Form.graft (← child.form) _) = _
  rw [below]
  rfl

theorem form_map (kind : info.kind = .field key) (keys : child.form = .ok inner)
    (values : second.form = .ok other) {format : IndexFormat}
    (own : info.form = some (.list format (some (.record none []
      { parameters := [("__array__", .text "sorted_map")] })) { key := some key })) :
    (Node.mk info [child, second]).form = .ok (.list format (some (.record none [inner, other]
      { parameters := [("__array__", .text "sorted_map")] })) { key := some key }) := by
  have both : formAll [child, second] = .ok [inner, other] := by
    unfold formAll formAll formAll
    rw [keys, values]
    rfl
  unfold Node.form
  rw [kind, own]
  show (do return mapForm _ (← formAll [child, second])) = _
  rw [both]
  rfl

/-- a wrapper has the form of its child -/
theorem form_wrapper (kind : info.kind.isWrapper = true) (own : info.form = none) :
    (Node.mk info [child]).form = child.form := by
  rw [form]
  cases is : info.kind with
  | top | dispatch | wrongVersion | start =>
    rw [own]
    rfl
  | base | prebuilt | field =>
    rw [is] at kind
    cases kind

@[simp] theorem columnsAll_nil : columnsAll [] = .ok {} := by
  unfold columnsAll
  rfl

theorem form_record (kind : info.kind = .field key) {columns : Columns}
    (below : columnsAll children = .ok columns)
    (own : info.form = some (.record (some []) [] tags)) :
    (Node.mk info children).form = .ok (.record (some columns.fields) columns.contents tags) := by
  unfold Node.form
  rw [kind, own]
  show (do
    let columns ← columnsAll children
    return Form.record (some columns.fields) columns.contents (recordTags info)) = _
  rw [below]
  unfold recordTags
  rw [own]
  rfl

/-! ### columns -/

theorem columns_of_fieldName {node : Node} (kind : node.kind.isBase = false)
    (named : node.fieldName = .ok label) (below : node.form = .ok inner) :
    node.columns = .ok { fields := [label], contents := [inner] } := by
  cases node with
  | mk info children =>
    have notBase : ¬info.kind.isBase = true := Bool.eq_false_iff.1 kind
    unfold columns
    rw [if_neg notBase, named, below]
    rfl

theorem baseRecord_start (kind : info.kind = .start label) {fields : List String}
    {contents : List Form} (below : child.form = .ok (.record (some fields) contents tags))
    (dispatch version : Bool) :
    (Node.mk info [child]).baseRecord dispatch version = .ok (some fields, contents) := by
  unfold baseRecord
  rw [kind]
  show (child.form >>= _) = _
  rw [below]
  rfl

theorem baseRecord_dispatch (kind : info.kind = .dispatch label) (version : Bool) :
    (Node.mk info [child]).baseRecord true version = child.baseRecord false version := by
  rw [baseRecord, kind]
  rfl

theorem columns_base (kind : info.kind = .base label) {fields : List String}
    {contents : List Form} (below : child.baseRecord true true = .ok (some fields, contents)) :
    (Node.mk info [child]).columns = .ok { fields, contents } := by
  unfold columns
  rw [kind]
  show (child.baseRecord true true >>= _) = _
  rw [below]
  rfl

end Node

/-! ## from the tree of a type -/

namespace Plan

open Registry

variable {plan : Plan}

@[simp] theorem fieldName_node (plan : Plan) (type : StreamType) (name : String) (ctx : Context) :
    (plan.node type (some name) ctx).fieldName = .ok name := by
  have own {info : NodeInfo} {children : List Node} (field : info.field = some name) :
      (Node.mk info children).fieldName = .ok name := by
    unfold Node.fieldName
    rw [field]
  induction type generalizing ctx with
  | array element count ih =>
    rw [node]
    cases elements : element.primitive? with
    | some p =>
      apply own
      unfold Contribution.array
      rw [elements]
    | none =>
      unfold Contribution.array Node.fieldName
      rw [elements]
      exact ih ctx.elements
  | vector element ih =>
    rw [node]
    apply own
    unfold Contribution.vector
    cases element.primitive? <;> rfl
  | text kind => cases kind <;> rw [node] <;> exact own rfl
  | named className =>
    rw [node_named]
    exact own rfl
  | _ =>
    rw [node]
    exact own rfl

@[simp]
theorem isBase_node (plan : Plan) (type : StreamType) (field : Option String) (ctx : Context) :
    (plan.node type field ctx).kind.isBase = false := by
  cases type with
  | vector element =>
    rw [node]
    exact congrArg NodeKind.isBase (kind_vector element _ field ctx)
  | array element count =>
    rw [node]
    exact congrArg NodeKind.isBase (kind_array element count.toNat field ctx)
  | text kind => cases kind <;> rw [node] <;> rfl
  | named className =>
    rw [node_named]
    rfl
  | _ =>
    rw [node]
    rfl

/-- a base starts with a record of its columns -/
theorem columns_base (regular : plan.registry.Regular) {base : String} {layout : Layout}
    (there : layout ∈ plan.registry.layouts) (mem : base ∈ layout.bases) (format : IndexFormat)
    (seen path : List String) {ctx : Context} {info : NodeInfo} {label : String}
    (kind : info.kind = .base label)
    (below : (plan.node (.ofClass base) none ctx).form =
      .ok (plan.registry.formOf format (.ofClass base) seen path)) :
    let columns := (plan.registry.formOf format (.ofClass base) seen path).columns
    (Node.mk info [plan.node (.ofClass base) none ctx]).columns =
      .ok { fields := columns.map Prod.fst, contents := columns.map Prod.snd } := by
  rcases regular.basesKnown layout there base mem with rfl | ⟨-, named⟩
  · have object : StreamType.ofClass "TObject" = .object := rfl
    rw [object] at below ⊢
    rw [node, Node.form_wrapper rfl rfl] at below
    rw [formOf] at below ⊢
    rw [node]
    exact Node.columns_base kind (Node.baseRecord_start rfl below true true)
  · rw [named] at below ⊢
    rw [node_named, Node.form_wrapper rfl rfl, Node.form_wrapper rfl rfl] at below
    rw [formOf_named] at below ⊢
    rw [node_named, Form.columns_ofClass]
    refine Node.columns_base kind ((Node.baseRecord_dispatch rfl true).trans ?_)
    exact Node.baseRecord_start rfl below false true

/-- the columns of a part of an object, when the part has its form -/
theorem columns_part (regular : plan.registry.Regular) {name : String} {ctx : Context} {part : Part}
    (mem : part ∈ plan.registry.partsIn ctx.breadcrumbs name)
    (below : (plan.node part.type part.field (part.context (ctx.inClass name))).form =
      .ok (plan.registry.formOf ctx.indexFormat part.type (ctx.breadcrumbs ++ [name])
        (ctx.path ++ [part.slot]))) :
    let columns := plan.registry.partColumns ctx.indexFormat (ctx.breadcrumbs ++ [name]) ctx.path part
    (plan.partNode (ctx.inClass name) part).columns =
      .ok { fields := columns.map Prod.fst, contents := columns.map Prod.snd } := by
  cases part with
  | member own =>
    exact Node.columns_of_fieldName (plan.isBase_node own.type (some own.name) _)
      (plan.fieldName_node own.type own.name _) below
  | base base =>
    obtain ⟨-, layout, known, there⟩ := of_mem_partsIn mem
    have inBases : base ∈ layout.bases := by
      rcases List.mem_append.1 there with there | there
      · obtain ⟨other, inBases, same⟩ := List.mem_map.1 there
        cases same
        exact inBases
      · obtain ⟨other, -, same⟩ := List.mem_map.1 there
        cases same
    exact columns_base regular (mem_of_latest? known).1 inBases _ _ _ rfl below

/-- the columns of all parts -/
theorem columns_parts {ctx : Context} {columns : Part → List (String × Form)} {parts : List Part}
    (each : ∀ part ∈ parts, (plan.partNode ctx part).columns =
      .ok { fields := (columns part).map Prod.fst, contents := (columns part).map Prod.snd }) :
    Node.columnsAll (parts.map (plan.partNode ctx)) =
      .ok { fields := (parts.flatMap columns).map Prod.fst,
            contents := (parts.flatMap columns).map Prod.snd } := by
  induction parts with
  | nil => exact Node.columnsAll_nil
  | cons part parts ih =>
    have first := each part List.mem_cons_self
    have rest := ih fun other mem => each other (List.mem_cons_of_mem part mem)
    rw [List.map_cons, List.flatMap_cons, List.map_append, List.map_append]
    unfold Node.columnsAll
    rw [first, rest]
    rfl

/-- the tree of a type has the form of the type -/
theorem form_node (regular : plan.registry.Regular) (type : StreamType) (field : Option String)
    (ctx : Context) : (plan.node type field ctx).form =
      .ok (plan.registry.formOf ctx.indexFormat type ctx.breadcrumbs ctx.path) := by
  induction type, ctx using plan.registry.walk generalizing field with
  | primitive p ctx =>
    rw [node, formOf]
    exact Node.form_numbers rfl rfl
  | text kind ctx =>
    rw [formOf]
    cases kind <;> rw [node] <;> exact Node.form_text rfl rfl
  | object ctx =>
    rw [node, formOf, Node.form_wrapper rfl rfl]
    exact Node.form_record rfl Node.columnsAll_nil rfl
  | datime | time | ref | refArray =>
    rw [node, formOf]
    exact Node.form_prebuilt rfl rfl
  | vector element ctx ih =>
    rw [node, formOf]
    unfold Contribution.vector
    cases elements : element.primitive? with
    | some p =>
      rw [StreamType.eq_primitive elements, formOf]
      exact Node.form_numbersList rfl rfl
    | none => exact Node.form_list rfl (ih none) rfl
  | array element count ctx ih =>
    rw [node, formOf]
    unfold Contribution.array
    cases elements : element.primitive? with
    | some p =>
      rw [StreamType.eq_primitive elements, formOf]
      exact Node.form_numbersRegular rfl rfl
    | none => exact Node.form_regular rfl (ih field) rfl
  | map key value ctx keys values =>
    rw [node, formOf]
    refine Node.form_map rfl ?_ ?_ rfl
    · rw [Node.form_looped]
      exact keys none
    · rw [Node.form_looped]
      exact values none
  | named name ctx ih =>
    rw [node_named, formOf_named, Node.form_wrapper rfl rfl, Node.form_wrapper rfl rfl]
    have columns := columns_parts fun part mem => by
      have own := ih part mem part.field
      rw [part.path_context, part.breadcrumbs_context, part.indexFormat_context] at own
      exact columns_part regular mem own
    exact Node.form_record rfl columns rfl

/-- the form of the whole tree -/
theorem form_whole (regular : plan.registry.Regular) (type : StreamType) (field : Option String)
    (ctx : Context) : (plan.whole type field ctx).form =
      .ok (plan.registry.formOf ctx.indexFormat type ctx.breadcrumbs ctx.path) := by
  unfold whole
  rw [Node.form_wrapper rfl rfl]
  exact plan.form_node regular type field ctx

end Plan

theorem Generator.model_of_form {g : Generator} {form : Form} (derived : g.node.form = .ok form) :
    g.model = .ok { node := g.node, program := g.node.program, form } := by
  unfold Generator.model Model.ofNode
  rw [derived]
  rfl

/-- **The derived form is the form of the type.**  A fresh generator that has read some entries, the
last of them complete, gives a model, and its form is told by the type alone. -/
theorem Interpretation.model_form {interpretation : Interpretation} {entries : List Bytes}
    {g : Generator} (regular : interpretation.registry.Regular)
    (apart : Place.Apart (interpretation.registry.places interpretation.type interpretation.context))
    (reads : interpretation.ReadsInto {} entries g) (some_ : entries ≠ [])
    (complete : g.incomplete = false) :
    ∃ model, g.model = .ok model ∧ model.form =
      interpretation.registry.formOf interpretation.options.indexFormat interpretation.type [] [] := by
  obtain ⟨traces, length, allReads, rfl⟩ := reads.traced
  have more : traces ≠ [] := by
    rintro rfl
    exact some_ (List.length_eq_zero_iff.1 length.symm)
  let plan := Plan.ofMarks interpretation.registry (Trace.marksAll interpretation.context traces)
  have form := plan.form_whole regular interpretation.type none interpretation.context
  rw [← Plan.node_entries regular apart none allReads more complete] at form
  exact ⟨_, Generator.model_of_form form, rfl⟩

/-! ### points -/

/-- points on a line, objects of their own, with the numbers of what was hit there -/
def points : Interpretation where
  type := .named "Point"
  registry :=
    { layouts := [{ name := "Point", version := 1, bases := ["TObject"],
                    members := [⟨"x", .primitive .int32⟩, ⟨"hits", .vector (.primitive .uint8)⟩] }] }

/-- the point 7, where one thing was hit -/
def point : Bytes :=
  #[0x40, 0, 0, 27, 0, 1, 0, 1, 0, 0, 0, 0, 0, 0, 0, 0, 0, 0, 0, 7, 0x40, 0, 0, 7, 0, 0, 0, 0, 0, 1,
    5]

theorem regular_points : points.registry.Regular := by
  refine ⟨?_, ?_, ?_, ?_, ?_⟩ <;> decide

theorem partsIn_points : points.registry.partsIn points.context.breadcrumbs "Point" =
    [.base "TObject", .member ⟨"x", .primitive .int32⟩,
      .member ⟨"hits", .vector (.primitive .uint8)⟩] := by
  decide

theorem places_points : points.registry.places points.type points.context =
    [([], "dispatch"), ([], "model"), ([], ""), (["@base TObject"], "base"),
      (["@base TObject"], "model"), (["@base TObject"], ""), (["x"], "base"), (["x"], ""),
      (["hits"], "base"), (["hits"], ""), (["hits", "@items"], "")] := by
  show points.registry.places (.named "Point") points.context = _
  rw [Registry.places_named, partsIn_points]
  simp [Registry.partPlaces, Registry.places, Registry.gather, StreamType.places, StreamType.roles,
    StreamType.ofClass, Part.type, Part.context, Context.inBase, Context.inMember, Context.items,
    Context.inSlot, Context.withHeader, Context.inClass, Interpretation.context, Context.ofOptions]

theorem apart_points : Place.Apart (points.registry.places points.type points.context) := by
  rw [places_points]
  decide +kernel

theorem model_form_point : ∃ g model, points.ReadsInto {} [point] g ∧ g.model = .ok model ∧
    model.form = points.registry.formOf .i64 (.named "Point") [] [] := by
  have reads := @Interpretation.ReadsInto.single points point {} (by decide +kernel)
  obtain ⟨model, made, form⟩ := Interpretation.model_form regular_points apart_points reads
    (List.cons_ne_nil _ _) (by decide +kernel)
  exact ⟨_, model, reads, made, form⟩

end Baskets
