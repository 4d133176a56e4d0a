import Baskets.Contribution
import Mathlib.Data.List.Flatten
import Baskets.Proofs.Node.Present

/-!
# The columns of a tree and of its form

Declarations, initial code and the form of a tree come about apart from each other: the first two
are what the nodes hold, one after the other, while the form leaves out wrappers, splices the bases
of objects and puts the forms of children to the bottom of lists.  Where every node declares just
the columns of its own part of the form (`Node.InStep`), all three agree on the columns of the whole
tree and on their order (`outputs_form`, `Node.header_eq`, `Node.init_eq`).
-/

namespace Baskets

namespace Output

/-- the name that the column has from its place -/
def key : Output → String
  | .data key _ | .offsets key _ => key

/-- what a program does with the column before all entries: offsets begin at zero -/
def opening : Output → List Instruction
  | .data _ _ => []
  | .offsets key _ => [.zero key]

/-- data never end like offsets -/
theorem data_ne_offsets (key other : String) : key ++ "-data" ≠ other ++ "-offsets" := by
  intro same
  have lists := congrArg (fun name => name.toList.reverse.head?) same
  rw [String.toList_append, String.toList_append, List.reverse_append, List.reverse_append] at lists
  cases lists

theorem eq_of_ending {key other ending : String} (same : key ++ ending = other ++ ending) :
    key = other := by
  have lists := congrArg String.toList same
  rw [String.toList_append, String.toList_append] at lists
  exact String.toList_inj.1 (List.append_cancel_right lists)

theorem key_eq_of_name_eq {first second : Output} (same : first.name = second.name) :
    first.key = second.key := by
  cases first with
  | data key primitive =>
    cases second with
    | data other => exact eq_of_ending same
    | offsets other => exact absurd same (data_ne_offsets key other)
  | offsets key format =>
    cases second with
    | data other => exact absurd same.symm (data_ne_offsets other key)
    | offsets other => exact eq_of_ending same

end Output

/-! ## of forms -/

namespace Form

mutual

/-- the columns of a form, its own first: numbers have one of data and lists of any length one of
offsets, lists of one length and records have none -/
def outputs : Form → List Output
  | .leaf primitive _ tags => tags.key.toList.map (.data · primitive)
  | .list offsets content tags => tags.key.toList.map (.offsets · offsets) ++ contentOutputs content
  | .regular _ content _ => contentOutputs content
  | .record _ contents _ => contentsOutputs contents

def contentOutputs : Option Form → List Output
  | none => []
  | some form => form.outputs

def contentsOutputs : List Form → List Output
  | [] => []
  | form :: forms => form.outputs ++ contentsOutputs forms

end

/-- the columns of what the form holds -/
def innerOutputs : Form → List Output
  | .leaf .. => []
  | .list _ content _ | .regular _ content _ => contentOutputs content
  | .record _ contents _ => contentsOutputs contents

/-- numbers, or lists of numbers: nothing of the form is left to others -/
def isWhole : Form → Bool
  | .leaf .. | .list _ (some (.leaf ..)) _ | .regular _ (some (.leaf ..)) _ => true
  | _ => false

@[simp] theorem contentsOutputs_append (forms others : List Form) :
    contentsOutputs (forms ++ others) = contentsOutputs forms ++ contentsOutputs others := by
  induction forms with
  | nil => rfl
  | cons form forms ih => simp [contentsOutputs, ih]

theorem innerOutputs_eq_nil {form : Form} (none : form.outputs = []) : form.innerOutputs = [] := by
  cases form with
  | leaf => rfl
  | list offsets content tags =>
    simp only [outputs, List.append_eq_nil_iff] at none
    exact none.2
  | regular size content tags => simpa [outputs, innerOutputs] using none
  | record fields contents tags => simpa [outputs, innerOutputs] using none

theorem isWhole_of_isText {form : Form} (list : form.isList = true) (text : form.isText = true) :
    form.isWhole = true := by
  unfold isText at text
  cases form with
  | leaf | record => cases list
  | list offsets content tags | regular size content tags =>
    cases content with
    | none => simp [content?] at text
    | some content =>
      cases content with
      | leaf => rfl
      | list | regular | record => simp [content?] at text

theorem outputs_graft (bottom : Form) {form : Form} (list : form.isList = true)
    (inner : form.innerOutputs = []) :
    (graft bottom form).outputs = form.outputs ++ bottom.outputs := by
  -- a list in the list has no columns either, so the bottom brings all that is new
  have below {content : Form} (here : content.outputs = []) (grafted : content.isList = true →
      content.innerOutputs = [] → (graft bottom content).outputs =
        content.outputs ++ bottom.outputs) :
      (if content.isList then graft bottom content else bottom).outputs = bottom.outputs := by
    split
    · rw [grafted ‹_› (innerOutputs_eq_nil here), here, List.nil_append]
    · rfl
  fun_induction graft bottom form with
  | case1 offsets content tags ih =>
    have here : content.outputs = [] := inner
    simp [outputs, contentOutputs, below here ih, here]
  | case2 offsets tags => simp [outputs, contentOutputs]
  | case3 size content tags ih =>
    have here : content.outputs = [] := inner
    simp [outputs, contentOutputs, below here ih, here]
  | case4 size tags => simp [outputs, contentOutputs]
  | case5 form someList noneList someRegular noneRegular =>
    cases form with
    | leaf | record => cases list
    | list offsets content tags =>
      cases content with
      | none => exact (noneList _ _ rfl).elim
      | some content => exact (someList _ _ _ rfl).elim
    | regular size content tags =>
      cases content with
      | none => exact (noneRegular _ _ rfl).elim
      | some content => exact (someRegular _ _ _ rfl).elim

end Form

/-! ## of trees -/

/-- the columns of the part of the form that the node holds -/
def NodeInfo.outputs (info : NodeInfo) : List Output := Form.contentOutputs info.form

/-- nothing of the form is left to children -/
def NodeInfo.isWhole (info : NodeInfo) : Bool :=
  match info.kind with
  | .prebuilt _ => true
  | _ => info.form.elim false Form.isWhole

namespace Node

/-- the columns of some nodes -/
def outputsOf (nodes : List Node) : List Output := nodes.flatMap fun node => node.info.outputs

/-- the columns of all nodes of a tree, those of a node before those of its children -/
def outputs (node : Node) : List Output := outputsOf node.within

def outputsAll (nodes : List Node) : List Output := outputsOf (withinAll nodes)

/-- The node declares its own columns and begins those with offsets.  What it holds of the form is
either whole, and then it has no children, or has no columns but its own. -/
structure InStep (node : Node) : Prop where
  header : node.info.header = Contribution.declarations node.info.outputs
  init : node.info.init = Contribution.code (node.info.outputs.flatMap Output.opening)
  bare : node.kind.isWrapper = true ∨ node.kind.isBase = true → node.info.form = none
  alone : node.info.isWhole = true → node.children = []
  inner : node.info.isWhole = false → ∀ form ∈ node.info.form, form.innerOutputs = []

section
variable {info : NodeInfo} {children : List Node} {form : Form}

@[simp] theorem outputs_mk (info : NodeInfo) (children : List Node) :
    (Node.mk info children).outputs = info.outputs ++ outputsAll children := rfl

@[simp] theorem outputsAll_cons (node : Node) (nodes : List Node) :
    outputsAll (node :: nodes) = node.outputs ++ outputsAll nodes := List.flatMap_append

@[simp] theorem outputsAll_nil : outputsAll [] = [] := rfl

theorem outputsAll_single (node : Node) : outputsAll [node] = node.outputs := by
  simp

theorem outputs_of_form_none (none_ : info.form = none) :
    (Node.mk info children).outputs = outputsAll children := by
  rw [outputs_mk]
  simp [NodeInfo.outputs, none_, Form.contentOutputs]

theorem outputs_of_form (own : info.form = some form) :
    (Node.mk info children).outputs = form.outputs ++ outputsAll children := by
  rw [outputs_mk]
  simp [NodeInfo.outputs, own, Form.contentOutputs]

theorem isWhole_eq (plain : ∀ name, info.kind = .prebuilt name → False)
    (own : info.form = some form) : info.isWhole = form.isWhole := by
  unfold NodeInfo.isWhole
  split
  · exact (plain _ ‹_›).elim
  · rw [own]
    rfl

namespace InStep

variable (step : (Node.mk info children).InStep)
include step

theorem outputs_of_whole (own : info.form = some form) (whole : info.isWhole = true) :
    form.outputs = (Node.mk info children).outputs := by
  have none : children = [] := step.alone whole
  simp [outputs_of_form own, none]

theorem inner_of_children (some_ : children ≠ []) (own : info.form = some form) :
    form.innerOutputs = [] := by
  refine step.inner ?_ form own
  by_contra whole
  exact some_ (step.alone (by simpa using whole))

theorem outputs_of_bare (bare : info.kind.isWrapper = true ∨ info.kind.isBase = true) :
    (Node.mk info children).outputs = outputsAll children :=
  outputs_of_form_none (step.bare bare)

theorem outputs_of_record (notLeaf : ∀ p shape tags, info.form = some (.leaf p shape tags) → False)
    (notList : ¬info.form.elim false Form.isList = true)
    (plain : ∀ name, info.kind = .prebuilt name → False) :
    (Node.mk info children).outputs = outputsAll children := by
  cases own : info.form with
  | none => exact outputs_of_form_none own
  | some form =>
    rw [own] at notList
    cases form with
    | leaf p shape tags => exact (notLeaf p shape tags own).elim
    | list | regular => exact (notList rfl).elim
    | record fields contents tags =>
      have none := step.inner (isWhole_eq plain own) _ own
      rw [outputs_of_form own]
      simpa [Form.outputs, Form.innerOutputs] using none

end InStep

theorem outputs_emptyListForm (list : form.isList = true)
    (inner : form.isWhole = false → form.innerOutputs = []) :
    (emptyListForm form).outputs = form.outputs := by
  unfold emptyListForm
  split
  · rfl
  · rename_i notNumbers
    have none : form.innerOutputs = [] := by
      apply inner
      cases form with
      | leaf | record => cases list
      | list offsets content tags | regular size content tags =>
        cases content with
        | none => rfl
        | some content =>
          cases content with
          | leaf primitive shape tags => exact (notNumbers _ _ _ rfl).elim
          | list | regular | record => rfl
    cases form with
    | leaf | record => cases list
    | list | regular =>
      simp_all [Form.withContent, Form.outputs, Form.innerOutputs, Form.contentOutputs]

theorem outputs_mapForm (contents : List Form) (pairs : form.isMap = true)
    (inner : form.innerOutputs = []) :
    (mapForm form contents).outputs = form.outputs ++ Form.contentsOutputs contents := by
  cases form with
  | leaf | record => cases pairs
  | list offsets content tags | regular size content tags =>
    cases content with
    | none => cases pairs
    | some content =>
      cases content with
      | leaf | list | regular => cases pairs
      | record =>
        simp_all [mapForm, Form.content?, Form.withContent, Form.outputs, Form.innerOutputs,
          Form.contentOutputs]

@[simp] theorem withinAll_single (node : Node) : withinAll [node] = node.within := List.append_nil _

end

mutual

/-- the form of a tree has the columns of the tree -/
theorem outputs_form : (node : Node) → (∀ part ∈ node.within, part.InStep) → {form : Form} →
    node.form = .ok form → form.outputs = node.outputs
  | .mk info children, steps, form, derived => by
    obtain ⟨self, below⟩ := List.forall_mem_cons.1 steps
    unfold Node.form at derived
    split at derived
    · cases derived
    · cases derived
      exact self.outputs_of_whole ‹_› (by simp [NodeInfo.isWhole, ‹info.kind = _›])
    · rename_i own plain
      split at derived
      · cases derived
        refine self.outputs_of_whole own ?_
        rw [isWhole_eq plain own]
        rfl
      · cases derived
    · rename_i notLeaf formless formed
      have plain : ∀ name, info.kind = .prebuilt name → False := by
        intro name kind
        cases own : info.form with
        | none => exact formless name kind own
        | some form => exact formed name form kind own
      split at derived
      · rename_i isList
        split at derived
        · rename_i list own
          rw [own] at isList
          split at derived
          · cases derived
            refine self.outputs_of_whole own ?_
            rw [isWhole_eq plain own]
            exact Form.isWhole_of_isText isList ‹_›
          · split at derived
            · cases derived
              rw [outputs_of_form own, outputsAll_nil, List.append_nil]
              apply outputs_emptyListForm isList
              intro open_
              rw [← isWhole_eq plain own] at open_
              exact self.inner open_ _ own
            · rw [withinAll_single] at below
              obtain ⟨inner, one, derived⟩ := bind_ok derived
              cases derived
              rw [outputs_of_form own, outputsAll_single, ← outputs_form _ below one]
              exact Form.outputs_graft _ isList (self.inner_of_children (List.cons_ne_nil _ _) own)
            · rename_i some_ _
              split at derived
              · rename_i pair
                obtain ⟨contents, all, derived⟩ := bind_ok derived
                cases derived
                rw [outputs_of_form own, ← outputs_formAll _ below all]
                exact outputs_mapForm contents pair.2 (self.inner_of_children some_ own)
              · cases derived
        · cases derived
      · split at derived
        · rename_i wrapper
          split at derived
          · rw [withinAll_single] at below
            rw [self.outputs_of_bare (.inl wrapper), outputsAll_single]
            exact outputs_form _ below derived
          · cases derived
        · rename_i notList _
          obtain ⟨columns, all, derived⟩ := bind_ok derived
          cases derived
          rw [self.outputs_of_record notLeaf notList plain, ← outputs_columnsAll _ below all]
          rfl
termination_by node => (sizeOf node, 0)

theorem outputs_formAll : (nodes : List Node) → (∀ part ∈ withinAll nodes, part.InStep) →
    {forms : List Form} → formAll nodes = .ok forms →
      Form.contentsOutputs forms = outputsAll nodes
  | [], _, forms, derived => by
    unfold formAll at derived
    cases derived
    rfl
  | node :: nodes, steps, forms, derived => by
    obtain ⟨first, rest⟩ := List.forall_mem_append.1 steps
    unfold formAll at derived
    obtain ⟨form, one, derived⟩ := bind_ok derived
    obtain ⟨others, more, derived⟩ := bind_ok derived
    cases derived
    rw [outputsAll_cons, ← outputs_form node first one, ← outputs_formAll nodes rest more]
    rfl
termination_by nodes => (sizeOf nodes, 0)

theorem outputs_columnsAll : (nodes : List Node) → (∀ part ∈ withinAll nodes, part.InStep) →
    {columns : Columns} → columnsAll nodes = .ok columns →
      Form.contentsOutputs columns.contents = outputsAll nodes
  | [], _, columns, derived => by
    unfold columnsAll at derived
    cases derived
    rfl
  | node :: nodes, steps, columns, derived => by
    obtain ⟨first, rest⟩ := List.forall_mem_append.1 steps
    unfold columnsAll at derived
    obtain ⟨own, one, derived⟩ := bind_ok derived
    obtain ⟨others, more, derived⟩ := bind_ok derived
    cases derived
    rw [outputsAll_cons, ← outputs_columns node first one, ← outputs_columnsAll nodes rest more]
    exact Form.contentsOutputs_append _ _
termination_by nodes => (sizeOf nodes, 0)

theorem outputs_columns : (node : Node) → (∀ part ∈ node.within, part.InStep) →
    {columns : Columns} → node.columns = .ok columns →
      Form.contentsOutputs columns.contents = node.outputs
  | .mk info children, steps, columns, derived => by
    obtain ⟨self, below⟩ := List.forall_mem_cons.1 steps
    unfold Node.columns at derived
    split at derived
    · rename_i base
      split at derived
      · rw [withinAll_single] at below
        obtain ⟨record, start, derived⟩ := bind_ok derived
        rw [self.outputs_of_bare (.inr base), outputsAll_single,
          ← outputs_baseRecord true true _ below start]
        split at derived
        · cases derived
          rfl
        · cases derived
      · cases derived
    · obtain ⟨name, -, derived⟩ := bind_ok derived
      obtain ⟨form, one, derived⟩ := bind_ok derived
      cases derived
      rw [← outputs_form _ steps one]
      exact List.append_nil _
termination_by node => (sizeOf node, 1)

theorem outputs_baseRecord (dispatch version : Bool) : (node : Node) →
    (∀ part ∈ node.within, part.InStep) → {record : Option (List String) × List Form} →
      node.baseRecord dispatch version = .ok record →
        Form.contentsOutputs record.2 = node.outputs
  | .mk info children, steps, record, derived => by
    obtain ⟨self, below⟩ := List.forall_mem_cons.1 steps
    unfold Node.baseRecord at derived
    split at derived
    · rw [withinAll_single] at below
      split at derived
      · rename_i kind
        split at derived
        · rw [self.outputs_of_bare (.inl (by simp [kind, NodeKind.isWrapper])), outputsAll_single]
          exact outputs_baseRecord false version _ below derived
        · cases derived
      · rename_i kind
        split at derived
        · rw [self.outputs_of_bare (.inl (by simp [kind, NodeKind.isWrapper])), outputsAll_single]
          exact outputs_baseRecord false false _ below derived
        · cases derived
      · rename_i kind
        obtain ⟨form, one, derived⟩ := bind_ok derived
        rw [self.outputs_of_bare (.inl (by simp [kind, NodeKind.isWrapper])), outputsAll_single,
          ← outputs_form _ below one]
        split at derived
        · cases derived
          rfl
        · cases derived
      · cases derived
    · split at derived
      · split at derived <;> cases derived
      · split at derived <;> cases derived
      · cases derived
      · cases derived
termination_by node => (sizeOf node, 0)

end

/-! ### declarations and initial code -/

mutual

theorem inOrder_eq (part : NodeInfo → List String) : (node : Node) →
    node.inOrder part = String.join (node.within.flatMap fun node => part node.info)
  | .mk info children => by
    unfold inOrder within
    rw [inOrderAll_eq part children, List.flatMap_cons, String.join_append]
    rfl

theorem inOrderAll_eq (part : NodeInfo → List String) : (nodes : List Node) →
    inOrderAll part nodes = String.join ((withinAll nodes).flatMap fun node => part node.info)
  | [] => rfl
  | node :: nodes => by
    unfold inOrderAll withinAll
    rw [inOrder_eq part node, inOrderAll_eq part nodes, List.flatMap_append, String.join_append]

end

theorem header_eq {node : Node} (steps : ∀ part ∈ node.within, part.InStep) :
    node.program.header = String.join (Contribution.declarations node.outputs) := by
  show node.inOrder (·.header) = _
  rw [inOrder_eq, List.flatMap_congr fun part mem => (steps part mem).header]
  unfold Contribution.declarations outputs outputsOf
  rw [List.map_flatMap]

theorem init_eq {node : Node} (steps : ∀ part ∈ node.within, part.InStep) :
    node.program.init = String.join (Contribution.code (node.outputs.flatMap Output.opening)) := by
  show node.inOrder (·.init) = _
  rw [inOrder_eq, List.flatMap_congr fun part mem => (steps part mem).init]
  unfold Contribution.code outputs outputsOf
  rw [List.flatMap_assoc, List.map_flatMap]

/-! ### what has come up of a tree -/

mutual

/-- what is in the part that has come up is a part of something in the whole tree -/
theorem exists_of_mem_within_restrict (present : List NodeKind) : (node : Node) → {part : Node} →
    part ∈ (node.restrict present).within → ∃ whole ∈ node.within, part = whole.restrict present
  | .mk info children, part, mem => by
    rcases List.mem_cons.1 mem with rfl | mem
    · exact ⟨_, mem_within_self _, rfl⟩
    · obtain ⟨whole, there, same⟩ := exists_of_mem_withinAll_restrictAll present children mem
      exact ⟨whole, List.mem_cons_of_mem _ there, same⟩

theorem exists_of_mem_withinAll_restrictAll (present : List NodeKind) : (nodes : List Node) →
    {part : Node} → part ∈ withinAll (restrictAll present nodes) →
      ∃ whole ∈ withinAll nodes, part = whole.restrict present
  | [], part, mem => nomatch mem
  | node :: nodes, part, mem => by
    have rest (mem : part ∈ withinAll (restrictAll present nodes)) :
        ∃ whole ∈ withinAll (node :: nodes), part = whole.restrict present := by
      obtain ⟨whole, there, same⟩ := exists_of_mem_withinAll_restrictAll present nodes mem
      exact ⟨whole, List.mem_append_right _ there, same⟩
    rw [restrictAll_cons] at mem
    split at mem
    · rcases List.mem_append.1 mem with mem | mem
      · obtain ⟨whole, there, same⟩ := exists_of_mem_within_restrict present node mem
        exact ⟨whole, List.mem_append_left _ there, same⟩
      · exact rest mem
    · exact rest mem

end

theorem InStep.restrict {node : Node} (step : node.InStep) (present : List NodeKind) :
    (node.restrict present).InStep := by
  cases node with
  | mk info children =>
    refine ⟨step.header, step.init, step.bare, fun whole => ?_, step.inner⟩
    have none : children = [] := step.alone whole
    rw [none]
    rfl

theorem inStep_restrict {node : Node} (steps : ∀ part ∈ node.within, part.InStep)
    (present : List NodeKind) : ∀ part ∈ (node.restrict present).within, part.InStep := by
  intro part mem
  obtain ⟨whole, there, rfl⟩ := exists_of_mem_within_restrict present node mem
  exact (steps whole there).restrict present

theorem outputs_restrict_sublist (present : List NodeKind) (node : Node) :
    (node.restrict present).outputs.Sublist node.outputs := by
  have all := (infos_restrict_sublist present node).flatMap NodeInfo.outputs
  rw [List.flatMap_map, List.flatMap_map] at all
  exact all

end Node

end Baskets
