import Baskets.Proofs.Plan.Whole

/-!
# The headers of a type

Every header of a trace stands at a position of the type, and is passed over by the node of that
position (`Trace.marks_headers`).  The tree of a type has the lengths of its headers in its code and
nothing else that the bytes could change: two trees of one type are equal just when they pass over
headers of the same lengths (`Plan.node_eq_iff`).
-/

namespace Baskets

/-! ## positions of headers -/

/-- the path of the header before a value of the type, and the node that passes over it -/
def StreamType.headers (ctx : Context) : StreamType → List (List String × NodeKind)
  | .text .stdString | .vector _ | .map .. => [(ctx.path, .field (ctx.nodeName ""))]
  | .object => [(ctx.path, .start (ctx.label "TObject" "model"))]
  | .time | .refArray => [(ctx.path, .prebuilt (ctx.nodeName ""))]
  | .named className => [(ctx.path, .dispatch ((ctx.inClass className).label className "dispatch"))]
  | _ => []

namespace Registry

variable {registry : Registry}

/-- the headers of a type and of all types in it -/
def headers (registry : Registry) : StreamType → Context → List (List String × NodeKind) :=
  registry.gather (fun type ctx => type.headers ctx) fun _ => []

@[simp] theorem headers_named (name : String) (ctx : Context) : registry.headers (.named name) ctx =
    (ctx.path, .dispatch ((ctx.inClass name).label name "dispatch")) ::
      (registry.partsIn ctx.breadcrumbs name).flatMap fun part =>
        registry.headers part.type (part.context (ctx.inClass name)) :=
  registry.gather_named _ _ name ctx

@[simp]
theorem headers_vector (element : StreamType) (ctx : Context) : registry.headers (.vector element) ctx =
    (ctx.path, .field (ctx.nodeName "")) :: registry.headers element ctx.items :=
  registry.gather_vector _ _ element ctx

@[simp] theorem headers_array (element : StreamType) (count : UInt64) (ctx : Context) :
    registry.headers (.array element count) ctx = registry.headers element ctx.elements :=
  registry.gather_array _ _ element count ctx

@[simp]
theorem headers_map (key value : StreamType) (ctx : Context) : registry.headers (.map key value) ctx =
    (ctx.path, .field (ctx.nodeName "")) ::
      (registry.headers key ctx.mapKeys ++ registry.headers value ctx.mapValues) :=
  registry.gather_map _ _ key value ctx

theorem headers_simple {type : StreamType} (simple : type.isSimple = true) (ctx : Context) :
    registry.headers type ctx = type.headers ctx := registry.gather_simple _ _ simple ctx

/-- the node of the header before a value has its name from a place that the type has of its own -/
theorem own_headers_within (type : StreamType) (ctx : Context) : ∀ header ∈ type.headers ctx,
    ∃ place ∈ type.places ctx, place.1 = header.1 ∧ header.2.NamedAfter place := by
  have one {kind : NodeKind} {role : String} (mem : role ∈ type.roles)
      (named : kind.NamedAfter (ctx.path, role)) : ∀ header ∈ [(ctx.path, kind)],
        ∃ place ∈ type.places ctx, place.1 = header.1 ∧ header.2.NamedAfter place :=
    List.forall_mem_singleton.2 ⟨_, List.mem_map_of_mem mem, rfl, named⟩
  have field := NodeKind.namedAfter_field ctx ""
  have prebuilt := NodeKind.namedAfter_prebuilt ctx ""
  cases type with
  | text kind =>
    cases kind with
    | tstring => exact List.forall_mem_nil _
    | stdString => exact one List.mem_cons_self field
  | vector | map => exact one List.mem_cons_self field
  | time | refArray => exact one List.mem_cons_self prebuilt
  | object | named => exact one List.mem_cons_self (NodeKind.namedAfter_label rfl)
  | primitive | datime | ref | array => exact List.forall_mem_nil _

/-- the node of a header has its name from a place at the path of the header -/
theorem headers_within (type : StreamType) (ctx : Context) :
    ∀ header ∈ registry.headers type ctx, ∃ role,
      (header.1, role) ∈ registry.places type ctx ∧ header.2.NamedAfter (header.1, role) := by
  intro header mem
  obtain ⟨⟨path, role⟩, there, rfl, named⟩ :=
    registry.exists_mem_gather _ own_headers_within type ctx header mem
  exact ⟨role, there, named⟩

end Registry

/-! ## the headers of a trace -/

namespace Trace

variable {registry : Registry} {generating : Bool} {element : StreamType} {ctx : Context}
  {c d : Cursor} {items : List Trace} {parts : List Part}

theorem ReadsAll.exists_of_mem (reads : ReadsAll registry generating element ctx c items d)
    {item : Trace} (mem : item ∈ items) : ∃ d e, item.Reads registry generating element ctx d e := by
  induction items generalizing c with
  | nil => cases mem
  | cons trace rest ih =>
    cases reads with
    | cons first others =>
      rcases List.mem_cons.1 mem with rfl | mem
      · exact ⟨_, _, first⟩
      · exact ih others mem

theorem ReadsParts.exists_of_mem (reads : ReadsParts registry generating ctx parts c items d)
    {part : Part} {item : Trace} (mem : (part, item) ∈ parts.zip items) :
    ∃ d e, item.Reads registry generating part.type (part.context ctx) d e := by
  induction parts generalizing c items with
  | nil => cases mem
  | cons other parts ih =>
    cases reads with
    | cons first rest =>
      rcases List.mem_cons.1 mem with same | mem
      · cases same
        exact ⟨_, _, first⟩
      · exact ih rest mem

/-- whatever is put together from the elements of a list comes from one of them -/
theorem ReadsAll.exists_of_mem_flatMap {α : Type} {f : Trace → List α} {x : α}
    (reads : ReadsAll registry generating element ctx c items d) (mem : x ∈ items.flatMap f) :
    ∃ (item : Trace) (d e : Cursor), item.Reads registry generating element ctx d e ∧ x ∈ f item := by
  obtain ⟨item, there, mem⟩ := List.mem_flatMap.1 mem
  obtain ⟨d, e, one⟩ := reads.exists_of_mem there
  exact ⟨item, d, e, one, mem⟩

theorem ReadsParts.exists_of_mem_flatMap {α : Type} {f : Part × Trace → List α} {x : α}
    (reads : ReadsParts registry generating ctx parts c items d)
    (mem : x ∈ (parts.zip items).flatMap f) : ∃ part ∈ parts, ∃ (item : Trace) (d e : Cursor),
      item.Reads registry generating part.type (part.context ctx) d e ∧ x ∈ f (part, item) := by
  obtain ⟨⟨part, item⟩, there, mem⟩ := List.mem_flatMap.1 mem
  obtain ⟨d, e, one⟩ := reads.exists_of_mem there
  exact ⟨part, (List.of_mem_zip there).1, item, d, e, one, mem⟩

theorem marksAll_eq (ctx : Context) (items : List Trace) :
    marksAll ctx items = items.flatMap fun item => item.marks ctx := by
  induction items with
  | nil => rfl
  | cons item rest ih => exact congrArg (item.marks ctx ++ ·) ih

theorem marksParts_eq (ctx : Context) (parts : List Part) (items : List Trace) :
    marksParts ctx parts items =
      (parts.zip items).flatMap fun own => own.2.marks (own.1.context ctx) := by
  induction parts generalizing items with
  | nil => cases items <;> rfl
  | cons part parts ih =>
    cases items with
    | nil => rfl
    | cons item rest => exact congrArg (item.marks (part.context ctx) ++ ·) (ih rest)

/-- a value without values of other types in it has the headers of its type -/
theorem map_marks_simple {type : StreamType} (simple : type.isSimple = true) {trace : Trace}
    (reads : trace.Reads registry generating type ctx c d) :
    (trace.marks ctx).map (fun mark => (mark.path, mark.node)) = type.headers ctx := by
  cases reads with
  | vector | array | map | object => cases simple
  | _ => rfl

/-- the headers of a trace stand where the type has headers -/
theorem marks_headers (regular : registry.Regular) (type : StreamType) (ctx : Context)
    {trace : Trace} {c d : Cursor} (reads : trace.Reads registry true type ctx c d) :
    ∀ mark ∈ trace.marks ctx, (mark.path, mark.node) ∈ registry.headers type ctx := by
  induction type, ctx using registry.walk generalizing trace c d with
  | vector element ctx ih =>
    cases reads with
    | vector before number all =>
      intro mark mem
      rw [Registry.headers_vector]
      rcases List.mem_cons.1 mem with rfl | mem
      · exact List.mem_cons_self
      · rw [marksAll_eq] at mem
        obtain ⟨item, d, e, reads, mem⟩ := all.exists_of_mem_flatMap mem
        exact List.mem_cons_of_mem _ (ih reads mark mem)
  | array element length ctx ih =>
    cases reads with
    | array same all =>
      intro mark mem
      have mem : mark ∈ marksAll ctx.elements _ := mem
      rw [marksAll_eq] at mem
      obtain ⟨item, d, e, reads, mem⟩ := all.exists_of_mem_flatMap mem
      simpa using ih reads mark mem
  | map key value ctx keys values =>
    cases reads with
    | map before number same allKeys allValues =>
      intro mark mem
      rw [Registry.headers_map]
      rcases List.mem_cons.1 mem with rfl | mem
      · exact List.mem_cons_self
      · refine List.mem_cons_of_mem _ (List.mem_append.2 ((List.mem_append.1 mem).imp ?_ ?_))
        · intro mem
          rw [marksAll_eq] at mem
          obtain ⟨item, d, e, reads, mem⟩ := allKeys.exists_of_mem_flatMap mem
          exact keys reads mark mem
        · intro mem
          rw [marksAll_eq] at mem
          obtain ⟨item, d, e, reads, mem⟩ := allValues.exists_of_mem_flatMap mem
          exact values reads mark mem
  | named name ctx ih =>
    cases reads with
    | @object _ _ _ _ _ header latest layout parts outside known takes chosen all =>
      obtain rfl : layout = latest := chosen.trans (regular.chosen known header.version)
      intro mark mem
      rw [Registry.headers_named]
      rcases List.mem_cons.1 mem with rfl | mem
      · exact List.mem_cons_self
      · rw [marksParts_eq] at mem
        obtain ⟨part, there, item, d, e, reads, mem⟩ := all.exists_of_mem_flatMap mem
        rw [← registry.partsIn_eq (outside rfl) known] at there
        exact List.mem_cons_of_mem _ (List.mem_flatMap.2 ⟨part, there, ih part there reads mark mem⟩)
  | _ =>
    rw [Registry.headers_simple rfl, ← map_marks_simple rfl reads]
    exact fun mark mem => List.mem_map_of_mem mem

end Trace

/-! ## what headers change in a tree -/

namespace Contribution

theorem line_skip_inj {a b : Nat} (same : (Instruction.skip a).line = (Instruction.skip b).line) :
    a = b := by
  have lists := congrArg String.toList same
  unfold Instruction.line Instruction.word at lists
  rw [String.toList_append, String.toList_append, String.toList_append, String.toList_append] at lists
  have numbers : (toString a).toList = (toString b).toList :=
    List.append_cancel_right (List.append_cancel_right lists)
  have digits (n : Nat) : (toString n).toList = Nat.toDigits 10 n := Nat.toList_repr
  rw [digits, digits] at numbers
  have values := congrArg (fun digits => Nat.ofDigitChars 10 digits 0) numbers
  rw [Nat.ofDigitChars_ten_toDigits, Nat.ofDigitChars_ten_toDigits] at values
  exact values

/-- the length of a header can be told from the code behind it -/
theorem code_skipAny_inj {a b : Nat} {rest : List Instruction}
    (same : code (Instruction.skipAny a ++ rest) = code (Instruction.skipAny b ++ rest)) : a = b := by
  have lines : code (Instruction.skipAny a) = code (Instruction.skipAny b) := by
    unfold code at same ⊢
    rw [List.map_append, List.map_append] at same
    exact List.append_cancel_right same
  unfold Instruction.skipAny at lines
  split at lines <;> split at lines
  · rw [‹a = 0›, ‹b = 0›]
  · cases lines
  · cases lines
  · exact line_skip_inj (List.cons.inj lines).1

/-- a contribution with a header in front of its code -/
theorem eq_iff_of_pre {info : Nat → NodeInfo} {rest : List Instruction}
    (pre : ∀ n, (info n).pre = code (Instruction.skipAny n ++ rest)) (a b : Nat) :
    info a = info b ↔ a = b := by
  refine ⟨fun same => ?_, congrArg info⟩
  have codes := congrArg NodeInfo.pre same
  rw [pre, pre] at codes
  exact code_skipAny_inj codes

theorem vector_eq_iff (element : StreamType) (field : Option String) (ctx : Context) (a b : Nat) :
    vector element a field ctx = vector element b field ctx ↔ a = b := by
  cases kind : element.primitive? with
  | some p => exact eq_iff_of_pre (fun n => Plan.pre_vector_numbers kind n field ctx) a b
  | none => exact eq_iff_of_pre (fun n => Plan.pre_vector_loop kind n field ctx) a b

theorem dispatch_eq_iff (className : String) (field : Option String) (ctx : Context) (a b : Nat) :
    dispatch className a field ctx = dispatch className b field ctx ↔ a = b := by
  refine ⟨fun same => ?_, congrArg fun n => dispatch className n field ctx⟩
  have lines : code [.skip a] = code [.skip b] := congrArg NodeInfo.pre same
  exact line_skip_inj (List.cons.inj lines).1

end Contribution

namespace Node

theorem mk_eq_iff {info other : NodeInfo} {children others : List Node} :
    Node.mk info children = Node.mk other others ↔ info = other ∧ children = others := by
  rw [Node.mk.injEq]

theorem looped_eq_iff (start : Instruction) (node other : Node) :
    node.looped start = other.looped start ↔ node = other := by
  refine ⟨fun same => ?_, congrArg (Node.looped start)⟩
  obtain ⟨info, children⟩ := node
  obtain ⟨otherInfo, others⟩ := other
  obtain ⟨infos, rfl⟩ := mk_eq_iff.1 same
  obtain ⟨kind, pre, post, init, header, form, field⟩ := info
  obtain ⟨kind', pre', post', init', header', form', field'⟩ := otherInfo
  simp only [Contribution.looped, NodeInfo.mk.injEq, List.cons.injEq, true_and,
    List.append_cancel_right_eq] at infos
  obtain ⟨rfl, rfl, rfl, rfl, rfl, rfl, rfl⟩ := infos
  rfl

end Node

namespace Plan

variable {registry : Registry} {length other : NodeKind → Nat}

theorem partNode_eq_iff {ctx : Context} {part : Part} :
    (Plan.mk registry length).partNode ctx part = (Plan.mk registry other).partNode ctx part ↔
      (Plan.mk registry length).node part.type part.field (part.context ctx) =
        (Plan.mk registry other).node part.type part.field (part.context ctx) := by
  cases part with
  | member own => exact Iff.rfl
  | base name =>
    refine ⟨fun same => ?_, congrArg fun node => Part.wrap ctx node (.base name)⟩
    obtain ⟨-, children⟩ := Node.mk_eq_iff.1 same
    exact (List.cons.inj children).1

/-- the node of a type without further types in it is told by the length of its header, if there is
one -/
theorem node_eq_iff_simple {type : StreamType} (simple : type.isSimple = true)
    (field : Option String) (ctx : Context) :
    (Plan.mk registry length).node type field ctx = (Plan.mk registry other).node type field ctx ↔
      ∀ header ∈ type.headers ctx, length header.2 = other header.2 := by
  have leaf (info : Nat → NodeInfo) (children : List Node) {path : List String} {kind : NodeKind}
      {rest : List Instruction}
      (pre : ∀ n, (info n).pre = Contribution.code (Instruction.skipAny n ++ rest)) :
      Node.mk (info (length kind)) children = Node.mk (info (other kind)) children ↔
        ∀ header ∈ [(path, kind)], length header.2 = other header.2 := by
    rw [Node.mk_eq_iff, Contribution.eq_iff_of_pre pre, and_iff_left rfl, List.forall_mem_singleton]
  cases type with
  | primitive | datime | ref =>
    rw [node, node]
    exact iff_of_true rfl (List.forall_mem_nil _)
  | text kind =>
    cases kind with
    | tstring =>
      rw [node, node]
      exact iff_of_true rfl (List.forall_mem_nil _)
    | stdString =>
      rw [node, node]
      exact leaf (fun n => Contribution.text n field ctx) [] fun _ => rfl
  | object =>
    rw [node, node]
    have pre (n : Nat) : (Contribution.objectStart n field ctx).pre =
        Contribution.code (Instruction.skipAny n ++ []) :=
      congrArg Contribution.code (List.append_nil (Instruction.skipAny n)).symm
    exact leaf (fun n => Contribution.objectStart n field ctx) _ pre
  | time =>
    rw [node, node]
    exact leaf (fun n => Contribution.time n field ctx) [] fun _ => rfl
  | refArray =>
    rw [node, node]
    exact leaf (fun n => Contribution.refArray n field ctx) [] fun _ => rfl
  | vector | array | map | named => cases simple

/-- **A tree is told by the lengths of its headers.** -/
theorem node_eq_iff (type : StreamType) (field : Option String) (ctx : Context) :
    (Plan.mk registry length).node type field ctx = (Plan.mk registry other).node type field ctx ↔
      ∀ header ∈ registry.headers type ctx, length header.2 = other header.2 := by
  have single {nodes : Node} {others : Node} : [nodes] = [others] ↔ nodes = others :=
    List.singleton_inj
  induction type, ctx using registry.walk generalizing field with
  | vector element ctx ih =>
    rw [node, node, Node.mk_eq_iff, Contribution.vector_eq_iff, Registry.headers_vector,
      List.forall_mem_cons]
    refine and_congr_right fun _ => ?_
    cases kind : element.primitive? with
    | some p =>
      obtain rfl := StreamType.eq_primitive kind
      rw [Registry.headers_simple rfl]
      exact iff_of_true rfl (List.forall_mem_nil _)
    | none => exact single.trans (ih none)
  | array element count ctx ih =>
    rw [node, node, Node.mk_eq_iff, and_iff_right rfl, Registry.headers_array]
    cases kind : element.primitive? with
    | some p =>
      obtain rfl := StreamType.eq_primitive kind
      rw [Registry.headers_simple rfl]
      exact iff_of_true rfl (List.forall_mem_nil _)
    | none => exact single.trans (ih field)
  | map key value ctx keys values =>
    have pre (n : Nat) : (Contribution.map n field ctx).pre = Contribution.code
        (Instruction.skipAny n ++ [.length (ctx.nodeName "")]) := rfl
    rw [node, node, Node.mk_eq_iff, Contribution.eq_iff_of_pre pre, Registry.headers_map,
      List.forall_mem_cons, List.forall_mem_append, List.cons_eq_cons, single,
      Node.looped_eq_iff, Node.looped_eq_iff]
    exact and_congr_right fun _ => and_congr (keys none) (values none)
  | named name ctx ih =>
    rw [node_named, node_named, Node.mk_eq_iff, Contribution.dispatch_eq_iff,
      Registry.headers_named, List.forall_mem_cons, single, Node.mk_eq_iff, and_iff_right rfl,
      single, Node.mk_eq_iff, and_iff_right rfl, List.map_inj_left, List.forall_mem_flatMap]
    refine and_congr_right fun _ => forall₂_congr fun part mem => ?_
    exact partNode_eq_iff.trans (ih part mem part.field)
  | _ =>
    rw [Registry.headers_simple rfl]
    exact node_eq_iff_simple rfl field _

end Plan

end Baskets
