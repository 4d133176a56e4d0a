import Baskets.Proofs.Discovery.Fallback
import Baskets.Proofs.Node.Outputs

/-!
# Program and form agree on the columns

Every node of the tree of a type declares the columns of its own part of the form
(`Plan.inStep_node`), and the names of the columns come from places of the type, each from a place
of its own (`Plan.keys_sublist`).  Both hold of any part of the tree that has come up as well, so a
model agrees with its form on the columns after any entries, whether they showed all of the tree or
not (`Interpretation.outputs_of_model`).
-/

namespace Baskets

namespace Node.InStep

variable {info : NodeInfo} {children : List Node} {form : Form}

/-- a node with all of its columns in hand -/
theorem of_whole (header : info.header = Contribution.declarations info.outputs)
    (init : info.init = Contribution.code (info.outputs.flatMap Output.opening))
    (column : info.kind.isWrapper = false ∧ info.kind.isBase = false)
    (whole : info.isWhole = true) : (Node.mk info []).InStep := by
  refine ⟨header, init, fun bare => ?_, fun _ => rfl, fun open_ => ?_⟩
  · exact absurd bare (by simp [Node.kind, Node.info, column])
  · exact absurd open_ (by simp [Node.info, whole])

/-- a node that leaves the rest of its form to children -/
theorem of_open (own : info.form = some form)
    (header : info.header = Contribution.declarations form.outputs)
    (init : info.init = Contribution.code (form.outputs.flatMap Output.opening))
    (column : info.kind.isWrapper = false ∧ info.kind.isBase = false)
    (open_ : info.isWhole = false) (inner : form.innerOutputs = []) :
    (Node.mk info children).InStep := by
  have outputs : info.outputs = form.outputs := by
    simp [NodeInfo.outputs, own, Form.contentOutputs]
  refine ⟨outputs ▸ header, outputs ▸ init, fun bare => ?_, fun whole => ?_, fun _ other mem => ?_⟩
  · exact absurd bare (by simp [Node.kind, Node.info, column])
  · exact absurd whole (by simp [Node.info, open_])
  · obtain rfl : form = other := Option.some.inj (own.symm.trans mem)
    exact inner

/-- a node without columns -/
theorem of_bare (own : info.form = none) (header : info.header = []) (init : info.init = [])
    (column : info.kind.isWrapper = true ∨ info.kind.isBase = true) :
    (Node.mk info children).InStep := by
  have outputs : info.outputs = [] := by simp [NodeInfo.outputs, own, Form.contentOutputs]
  have open_ : info.isWhole = false := by
    unfold NodeInfo.isWhole
    split
    · simp_all [NodeKind.isWrapper, NodeKind.isBase]
    · rw [own]
      rfl
  refine ⟨?_, ?_, fun _ => own, fun whole => ?_, fun _ form mem => ?_⟩
  · show info.header = Contribution.declarations info.outputs
    rw [outputs, header]
    rfl
  · show info.init = Contribution.code (info.outputs.flatMap Output.opening)
    rw [outputs, init]
    rfl
  · exact absurd whole (by simp [Node.info, open_])
  · cases own.symm.trans mem

end Node.InStep

namespace Plan

open Node

variable {plan : Plan}

theorem inStep_looped {node : Node} (start : Instruction)
    (steps : ∀ part ∈ node.within, part.InStep) :
    ∀ part ∈ (node.looped start).within, part.InStep := by
  cases node with
  | mk info children =>
    obtain ⟨self, below⟩ := List.forall_mem_cons.1 steps
    refine List.forall_mem_cons.2 ⟨?_, below⟩
    exact ⟨self.header, self.init, self.bare, self.alone, self.inner⟩

theorem inStep_parts {ctx : Context} {parts : List Part} (one : ∀ part ∈ parts,
      ∀ node ∈ (plan.node part.type part.field (part.context ctx)).within, node.InStep) :
    ∀ node ∈ withinAll (parts.map (plan.partNode ctx)), node.InStep := by
  induction parts with
  | nil => exact fun _ mem => nomatch mem
  | cons part parts ih =>
    have first := one part List.mem_cons_self
    refine List.forall_mem_append.2 ⟨?_, ih fun other mem => one other (List.mem_cons_of_mem _ mem)⟩
    cases part with
    | base name =>
      refine List.forall_mem_cons.2 ⟨.of_bare rfl rfl rfl (.inr rfl), ?_⟩
      simpa using first
    | member own => exact first

/-- every node of the tree of a type declares the columns of its own part of the form -/
theorem inStep_node (plan : Plan) (type : StreamType) (field : Option String) (ctx : Context) :
    ∀ node ∈ (plan.node type field ctx).within, node.InStep := by
  have column {name : String} : NodeKind.isWrapper (.field name) = false ∧
      NodeKind.isBase (.field name) = false := ⟨rfl, rfl⟩
  have leaf {info : NodeInfo} (step : (Node.mk info []).InStep) :
      ∀ node ∈ (Node.mk info []).within, node.InStep :=
    List.forall_mem_cons.2 ⟨step, fun _ mem => nomatch mem⟩
  have trunk {info : NodeInfo} {child : Node} (step : (Node.mk info [child]).InStep)
      (below : ∀ node ∈ child.within, node.InStep) :
      ∀ node ∈ (Node.mk info [child]).within, node.InStep := by
    refine List.forall_mem_cons.2 ⟨step, ?_⟩
    simpa using below
  induction type, ctx using plan.registry.walk generalizing field with
  | primitive | datime | time | ref | refArray =>
    rw [node]
    exact leaf (.of_whole rfl rfl ⟨rfl, rfl⟩ rfl)
  | text kind ctx =>
    cases kind <;> rw [node] <;> exact leaf (.of_whole rfl rfl column rfl)
  | object ctx =>
    rw [node]
    refine trunk (.of_bare rfl rfl rfl (.inl rfl)) (leaf ?_)
    exact .of_open rfl rfl rfl column rfl rfl
  | vector element ctx ih =>
    rw [node]
    unfold Contribution.vector
    cases element.primitive? with
    | some p => exact leaf (.of_whole rfl rfl column rfl)
    | none => exact trunk (.of_open rfl rfl rfl column rfl rfl) (ih none)
  | array element count ctx ih =>
    rw [node]
    unfold Contribution.array
    cases element.primitive? with
    | some p => exact leaf (.of_whole rfl rfl column rfl)
    | none => exact trunk (.of_open rfl rfl rfl column rfl rfl) (ih field)
  | map key value ctx keys values =>
    rw [node]
    refine List.forall_mem_cons.2 ⟨.of_open rfl rfl rfl column rfl rfl, ?_⟩
    refine List.forall_mem_append.2 ⟨inStep_looped _ (keys none), ?_⟩
    simpa using inStep_looped _ (values none)
  | named name ctx ih =>
    rw [node_named]
    refine trunk (.of_bare rfl rfl rfl (.inl rfl)) (trunk (.of_bare rfl rfl rfl (.inl rfl)) ?_)
    refine List.forall_mem_cons.2 ⟨.of_open rfl rfl rfl column rfl rfl, ?_⟩
    exact inStep_parts fun part mem => ih part mem part.field

theorem inStep_whole (plan : Plan) (type : StreamType) (field : Option String) (ctx : Context) :
    ∀ node ∈ (plan.whole type field ctx).within, node.InStep := by
  refine List.forall_mem_cons.2 ⟨.of_bare rfl rfl rfl (.inl rfl), ?_⟩
  simpa using plan.inStep_node type field ctx

/-! ## names -/

@[simp] theorem outputs_looped (start : Instruction) (node : Node) :
    (node.looped start).outputs = node.outputs := by
  cases node with
  | mk info children => rfl

section
variable {info : NodeInfo} {child : Node} {children : List Node} {front back : List String}

theorem keys_append (own : (info.outputs.map Output.key).Sublist front)
    (below : ((outputsAll children).map Output.key).Sublist back) :
    ((Node.mk info children).outputs.map Output.key).Sublist (front ++ back) := by
  simpa using own.append below

/-- a node without columns of its own -/
theorem keys_below (none : info.outputs = [])
    (below : ((outputsAll children).map Output.key).Sublist back) :
    ((Node.mk info children).outputs.map Output.key).Sublist back := by
  simpa [none] using below

theorem keys_single (one : (child.outputs.map Output.key).Sublist back) :
    ((outputsAll [child]).map Output.key).Sublist back := by
  rw [outputsAll_single]
  exact one

end

theorem keys_parts {ctx : Context} {parts : List Part} (one : ∀ part ∈ parts,
      ((plan.node part.type part.field (part.context ctx)).outputs.map Output.key).Sublist
        ((plan.registry.places part.type (part.context ctx)).map Place.name)) :
    ((outputsAll (parts.map (plan.partNode ctx))).map Output.key).Sublist
      ((parts.flatMap (plan.registry.partPlaces ctx)).map Place.name) := by
  induction parts with
  | nil => exact .slnil
  | cons part parts ih =>
    have rest := ih fun other mem => one other (List.mem_cons_of_mem _ mem)
    rw [List.map_cons, outputsAll_cons, List.map_append, List.flatMap_cons, List.map_append]
    refine .append ?_ rest
    -- the node around a base has a place, but no column
    apply List.Sublist.cons
    cases part with
    | base name => exact keys_below rfl (keys_single (one _ List.mem_cons_self))
    | member own => exact one _ List.mem_cons_self

/-- the columns are named after places of the type, in their order and each after another one -/
theorem keys_sublist (plan : Plan) (type : StreamType) (field : Option String) (ctx : Context) :
    ((plan.node type field ctx).outputs.map Output.key).Sublist
      ((plan.registry.places type ctx).map Place.name) := by
  induction type, ctx using plan.registry.walk generalizing field with
  | primitive p ctx =>
    rw [node, Registry.places_simple _ rfl]
    exact List.Sublist.refl [Place.name (ctx.path, "")]
  | text kind ctx =>
    rw [Registry.places_simple _ rfl]
    cases kind <;> rw [node] <;>
      exact List.Sublist.refl [Place.name (ctx.path, ""), Place.name (ctx.path, "chars")]
  | object ctx =>
    rw [node]
    exact List.nil_sublist _
  | datime | time | ref | refArray =>
    rw [node, Registry.places_simple _ rfl]
    exact List.sublist_cons_self _ _
  | vector element ctx ih =>
    rw [node, Registry.places_vector]
    unfold Contribution.vector
    cases numbers : element.primitive? with
    | some p =>
      rw [StreamType.eq_primitive numbers, Registry.places_simple _ rfl]
      exact List.Sublist.refl [Place.name (ctx.path, ""), Place.name (ctx.items.path, "")]
    | none => exact @keys_append _ _ [_] _ (.refl _) (keys_single (ih none))
  | array element count ctx ih =>
    rw [node, Registry.places_array]
    unfold Contribution.array
    cases numbers : element.primitive? with
    | some p =>
      rw [StreamType.eq_primitive numbers, Registry.places_simple _ rfl]
      exact List.sublist_cons_self _ _
    | none => exact (keys_below rfl (keys_single (ih field))).cons _
  | map key value ctx keys values =>
    rw [node, Registry.places_map]
    refine @keys_append _ _ [_] _ (.refl _) ?_
    rw [outputsAll_cons, outputsAll_single, outputs_looped, outputs_looped, List.map_append,
      List.map_append]
    exact (keys none).append (values none)
  | named name ctx ih =>
    rw [node_named, Registry.places_named, List.map_append]
    refine .trans ?_ (List.sublist_append_right _ _)
    refine keys_below rfl (keys_single (keys_below rfl (keys_single (keys_below rfl ?_))))
    exact keys_parts fun part mem => ih part mem part.field

theorem names_nodup (regular : plan.registry.Regular) (type : StreamType) (ctx : Context)
    (apart : Place.Apart (plan.registry.places type ctx)) :
    ((plan.registry.places type ctx).map Place.name).Nodup := by
  refine List.Nodup.map_on ?_ (regular.places_nodup type ctx)
  intro p here q there same
  exact apart p here q there (Place.placeKey_eq_of_name_eq same)

end Plan

theorem Output.names_nodup {outputs : List Output} (once : (outputs.map key).Nodup) :
    (outputs.map name).Nodup := by
  rw [List.nodup_map_iff_inj_on (List.Nodup.of_map _ once)]
  intro first here second there same
  exact List.inj_on_of_nodup_map once here there (key_eq_of_name_eq same)

/-! ## models -/

/-- **A model and its form agree on the columns.**  After any entries, complete or not, the program
declares the columns of the form and no others, in the order of the form, all of them by different
names, and begins those with offsets. -/
theorem Interpretation.outputs_of_model {interpretation : Interpretation} {entries : List Bytes}
    {g : Generator} {m : Model} (regular : interpretation.registry.Regular)
    (apart : Place.Apart (interpretation.registry.places interpretation.type interpretation.context))
    (reads : interpretation.ReadsInto {} entries g) (made : g.model = .ok m) :
    m.program.header = String.join (Contribution.declarations m.form.outputs) ∧
      (m.form.outputs.map Output.name).Nodup ∧
      m.program.init =
        String.join (Contribution.code (m.form.outputs.flatMap Output.opening)) := by
  obtain ⟨traces, -, allReads, rfl⟩ := reads.traced
  let plan := Plan.ofMarks interpretation.registry (Trace.marksAll interpretation.context traces)
  obtain ⟨present, between, -⟩ := Plan.between_entries regular apart none allReads
  have tree := between.node_restrict
  obtain ⟨form, derived, made⟩ := bind_ok made
  obtain rfl := Except.ok.inj made
  -- what is in step in the whole tree is in step in the part of it that has come up
  have steps := Node.inStep_restrict (plan.inStep_whole interpretation.type none
    interpretation.context) present
  rw [← tree] at steps
  have keys := (Node.outputs_restrict_sublist present (plan.whole interpretation.type none
    interpretation.context)).map Output.key
  rw [← tree] at keys
  have named := keys.trans (Plan.keys_below rfl (Plan.keys_single
    (plan.keys_sublist interpretation.type none interpretation.context)))
  have names := Output.names_nodup ((plan.names_nodup regular _ _ apart).sublist named)
  rw [Node.outputs_form _ steps derived]
  exact ⟨Node.header_eq steps, names, Node.init_eq steps⟩

/-- the columns of a point: its number, and where its list of numbers ends, and these numbers -/
theorem outputs_of_model_point : ∃ g m, points.ReadsInto {} [point] g ∧ g.model = .ok m ∧
    m.form.outputs = [.data (Place.name (["x"], "")) .int32,
      .offsets (Place.name (["hits"], "")) .i64, .data (Place.name (["hits", "@items"], "")) .uint8] ∧
    m.program.header = String.join (Contribution.declarations m.form.outputs) ∧
    (m.form.outputs.map Output.name).Nodup ∧
    m.program.init = Instruction.line (.zero (Place.name (["hits"], ""))) := by
  have reads := @Interpretation.ReadsInto.single points point {} (by decide +kernel)
  generalize grown : (points.read point (some _)).2.generator.getD {} = g at reads
  have columns : (Node.Structural.form g.node).toOption.map Form.outputs =
      some [.data (Place.name (["x"], "")) .int32, .offsets (Place.name (["hits"], "")) .i64,
        .data (Place.name (["hits", "@items"], "")) .uint8] := by
    rw [← grown]
    decide +kernel
  rw [← Node.form_eq_structural] at columns
  rcases g.exists_model_or with ⟨m, made⟩ | ⟨label, cause, form, -⟩
  · rw [(Generator.model_eq_ok made).1] at columns
    have columns := Option.some.inj columns
    obtain ⟨header, names, init⟩ := Interpretation.outputs_of_model regular_points apart_points
      reads made
    refine ⟨g, m, reads, made, columns, header, names, init.trans ?_⟩
    rw [columns]
    show String.join [_] = _
    rw [String.join_cons, String.join_nil, String.append_empty]
  · rw [form] at columns
    cases columns

end Baskets
