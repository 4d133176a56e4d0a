import Baskets.Node
import Mathlib.Data.List.Nodup

/-!
# The part of a tree that has come up

A generator grows a tree that is known in advance except for the order of growth: the whole tree of
a type.  What has come up of it so far is told by the kinds of nodes that are present, because no
two nodes of the whole tree are of one kind.  `Node.restrict` keeps the nodes of these kinds, and a
node that is hung below another one of them makes one more kind present (`hang_restrict`).

The place of a node in the whole tree is a list of `Frame`s, the outermost first.
-/

namespace Baskets

namespace Node

/-! ## kinds -/

mutual

/-- the kinds of all nodes, a node before its children -/
def kinds : Node → List NodeKind
  | .mk info children => info.kind :: kindsAll children

def kindsAll : List Node → List NodeKind
  | [] => []
  | node :: nodes => node.kinds ++ kindsAll nodes

end

@[simp] theorem mk_info_children (node : Node) : Node.mk node.info node.children = node := by
  cases node with
  | mk info children => rfl

theorem kind_mem_kinds (node : Node) : node.kind ∈ node.kinds := by
  cases node with
  | mk info children => exact List.mem_cons_self

@[simp] theorem kindsAll_append (nodes others : List Node) :
    kindsAll (nodes ++ others) = kindsAll nodes ++ kindsAll others := by
  induction nodes with
  | nil => rfl
  | cons node nodes ih =>
    show node.kinds ++ kindsAll (nodes ++ others) = (node.kinds ++ kindsAll nodes) ++ _
    rw [ih, List.append_assoc]

mutual

/-- a tree and all trees in it -/
def within : Node → List Node
  | .mk info children => .mk info children :: withinAll children

def withinAll : List Node → List Node
  | [] => []
  | node :: nodes => node.within ++ withinAll nodes

end

theorem mem_within_self (node : Node) : node ∈ node.within := by
  cases node with
  | mk info children => exact List.mem_cons_self

theorem mem_withinAll {nodes : List Node} {part : Node} :
    part ∈ withinAll nodes ↔ ∃ node ∈ nodes, part ∈ node.within := by
  induction nodes with
  | nil => simp [withinAll]
  | cons node nodes ih => simp [withinAll, ih]

@[simp] theorem withinAll_append (nodes others : List Node) :
    withinAll (nodes ++ others) = withinAll nodes ++ withinAll others := by
  induction nodes with
  | nil => rfl
  | cons node nodes ih =>
    show node.within ++ withinAll (nodes ++ others) = (node.within ++ withinAll nodes) ++ _
    rw [ih, List.append_assoc]

mutual

theorem kinds_eq_map : (node : Node) → node.kinds = node.within.map kind
  | .mk info children => congrArg (info.kind :: ·) (kindsAll_eq_map children)

theorem kindsAll_eq_map : (nodes : List Node) → kindsAll nodes = (withinAll nodes).map kind
  | [] => rfl
  | node :: nodes => by
    show node.kinds ++ kindsAll nodes = (node.within ++ withinAll nodes).map kind
    rw [kinds_eq_map node, kindsAll_eq_map nodes, List.map_append]

end

/-- where no two nodes are of one kind, the kind tells the node -/
theorem eq_of_kind_eq {node first second : Node} (once : node.kinds.Nodup)
    (here : first ∈ node.within) (there : second ∈ node.within) (same : first.kind = second.kind) :
    first = second := by
  rw [kinds_eq_map] at once
  exact List.inj_on_of_nodup_map once here there same

/-! ## what is present -/

mutual

/-- the nodes of the kinds that are present, below nodes that are -/
def restrict (present : List NodeKind) : Node → Node
  | .mk info children => .mk info (restrictAll present children)

def restrictAll (present : List NodeKind) : List Node → List Node
  | [] => []
  | node :: nodes =>
    if node.kind ∈ present then node.restrict present :: restrictAll present nodes
    else restrictAll present nodes

end

@[simp] theorem restrictAll_cons (present : List NodeKind) (node : Node) (nodes : List Node) :
    restrictAll present (node :: nodes) =
      if node.kind ∈ present then node.restrict present :: restrictAll present nodes
      else restrictAll present nodes := rfl

@[simp] theorem kind_restrict (present : List NodeKind) (node : Node) :
    (node.restrict present).kind = node.kind := by
  cases node with
  | mk info children => rfl

theorem kind_mem_of_mem_restrictAll {present : List NodeKind} (nodes : List Node) {node : Node}
    (mem : node ∈ restrictAll present nodes) : node.kind ∈ present := by
  induction nodes with
  | nil => cases mem
  | cons first nodes ih =>
    rw [restrictAll_cons] at mem
    by_cases there : first.kind ∈ present
    · rw [if_pos there] at mem
      rcases List.mem_cons.1 mem with rfl | mem
      · simpa using there
      · exact ih mem
    · rw [if_neg there] at mem
      exact ih mem

theorem restrict_mem_restrictAll {present : List NodeKind} {nodes : List Node} {node : Node}
    (mem : node ∈ nodes) (there : node.kind ∈ present) :
    node.restrict present ∈ restrictAll present nodes := by
  induction nodes with
  | nil => cases mem
  | cons first nodes ih =>
    rw [restrictAll_cons]
    rcases List.mem_cons.1 mem with rfl | mem
    · rw [if_pos there]
      exact List.mem_cons_self
    · split
      · exact List.mem_cons_of_mem _ (ih mem)
      · exact ih mem

@[simp] theorem restrictAll_append (present : List NodeKind) (nodes others : List Node) :
    restrictAll present (nodes ++ others) =
      restrictAll present nodes ++ restrictAll present others := by
  induction nodes with
  | nil => rfl
  | cons node nodes ih =>
    rw [List.cons_append, restrictAll_cons, restrictAll_cons, ih]
    by_cases there : node.kind ∈ present
    · rw [if_pos there, if_pos there, List.cons_append]
    · rw [if_neg there, if_neg there]

mutual

/-- only the kinds of the tree matter -/
theorem restrict_congr {present others : List NodeKind} : (node : Node) →
    (∀ kind ∈ node.kinds, kind ∈ present ↔ kind ∈ others) →
      node.restrict present = node.restrict others
  | .mk info children, same => by
    unfold restrict
    rw [restrictAll_congr children fun kind mem => same kind (List.mem_cons_of_mem _ mem)]

theorem restrictAll_congr {present others : List NodeKind} : (nodes : List Node) →
    (∀ kind ∈ kindsAll nodes, kind ∈ present ↔ kind ∈ others) →
      restrictAll present nodes = restrictAll others nodes
  | [], _ => rfl
  | node :: nodes, same => by
    have first := restrict_congr node fun kind mem => same kind (List.mem_append_left _ mem)
    have rest := restrictAll_congr nodes fun kind mem => same kind (List.mem_append_right _ mem)
    have root := same node.kind (List.mem_append_left _ node.kind_mem_kinds)
    unfold restrictAll
    rw [first, rest]
    by_cases there : node.kind ∈ present
    · rw [if_pos there, if_pos (root.1 there)]
    · rw [if_neg there, if_neg (mt root.2 there)]

end

mutual

/-- where all is present, nothing is left out -/
theorem restrict_of_subset {present : List NodeKind} : (node : Node) → node.kinds ⊆ present →
    node.restrict present = node
  | .mk info children, all => by
    unfold restrict
    rw [restrictAll_of_subset children fun _ mem => all (List.mem_cons_of_mem _ mem)]

theorem restrictAll_of_subset {present : List NodeKind} : (nodes : List Node) →
    kindsAll nodes ⊆ present → restrictAll present nodes = nodes
  | [], _ => rfl
  | node :: nodes, all => by
    have there := all (List.mem_append_left _ node.kind_mem_kinds)
    unfold restrictAll
    rw [if_pos there, restrict_of_subset node fun _ mem => all (List.mem_append_left _ mem),
      restrictAll_of_subset nodes fun _ mem => all (List.mem_append_right _ mem)]

end

theorem restrictAll_eq_nil {present : List NodeKind} {nodes : List Node}
    (none : ∀ kind ∈ kindsAll nodes, kind ∉ present) : restrictAll present nodes = [] := by
  induction nodes with
  | nil => rfl
  | cons node nodes ih =>
    have absent := none node.kind (List.mem_append_left _ node.kind_mem_kinds)
    unfold restrictAll
    rw [if_neg absent, ih fun kind mem => none kind (List.mem_append_right _ mem)]

/-- what comes before an absent node is all that is present -/
theorem restrictAll_of_absent {present : List NodeKind} {node : Node} (nodes : List Node)
    {others : List Node} (absent : node.kind ∉ present)
    (none : ∀ kind ∈ kindsAll others, kind ∉ present) :
    restrictAll present (nodes ++ node :: others) = restrictAll present nodes := by
  simp [absent, restrictAll_eq_nil none]

mutual

theorem infos_restrict_sublist (present : List NodeKind) : (node : Node) →
    ((node.restrict present).within.map info).Sublist (node.within.map info)
  | .mk _ children => (infos_restrictAll_sublist present children).cons_cons _

theorem infos_restrictAll_sublist (present : List NodeKind) : (nodes : List Node) →
    ((withinAll (restrictAll present nodes)).map info).Sublist ((withinAll nodes).map info)
  | [] => .slnil
  | node :: nodes => by
    have first := infos_restrict_sublist present node
    have rest := infos_restrictAll_sublist present nodes
    unfold restrictAll
    by_cases there : node.kind ∈ present
    · rw [if_pos there, withinAll, withinAll, List.map_append, List.map_append]
      exact first.append rest
    · rw [if_neg there, withinAll, List.map_append]
      exact rest.trans (List.sublist_append_right _ _)

end

theorem kinds_restrict_sublist (present : List NodeKind) (node : Node) :
    (node.restrict present).kinds.Sublist node.kinds := by
  have kinds := (infos_restrict_sublist present node).map NodeInfo.kind
  rw [List.map_map, List.map_map] at kinds
  rw [kinds_eq_map, kinds_eq_map]
  exact kinds

theorem kindsAll_restrictAll_sublist (present : List NodeKind) (nodes : List Node) :
    (kindsAll (restrictAll present nodes)).Sublist (kindsAll nodes) := by
  have kinds := (infos_restrictAll_sublist present nodes).map NodeInfo.kind
  rw [List.map_map, List.map_map] at kinds
  rw [kindsAll_eq_map, kindsAll_eq_map]
  exact kinds

/-! ## changes at one kind -/

mutual

/-- changes what the nodes of a kind hold, and puts more children behind the ones they have -/
def edit (place : NodeKind) (f : NodeInfo → NodeInfo) (extra : List Node) : Node → Node
  | .mk info children =>
    if info.kind = place then .mk (f info) (editAll place f extra children ++ extra)
    else .mk info (editAll place f extra children)

def editAll (place : NodeKind) (f : NodeInfo → NodeInfo) (extra : List Node) :
    List Node → List Node
  | [] => []
  | node :: nodes => node.edit place f extra :: editAll place f extra nodes

end

section
variable {place : NodeKind} {f : NodeInfo → NodeInfo} {extra : List Node}

mutual

theorem edit_of_notMem : (node : Node) → place ∉ node.kinds → node.edit place f extra = node
  | .mk info children, absent => by
    have root : info.kind ≠ place := fun same => absent (same ▸ List.mem_cons_self)
    unfold edit
    rw [if_neg root, editAll_of_notMem children fun mem => absent (List.mem_cons_of_mem _ mem)]

theorem editAll_of_notMem : (nodes : List Node) → place ∉ kindsAll nodes →
    editAll place f extra nodes = nodes
  | [], _ => rfl
  | node :: nodes, absent => by
    unfold editAll
    rw [edit_of_notMem node fun mem => absent (List.mem_append_left _ mem),
      editAll_of_notMem nodes fun mem => absent (List.mem_append_right _ mem)]

end

@[simp] theorem editAll_append (nodes others : List Node) :
    editAll place f extra (nodes ++ others) =
      editAll place f extra nodes ++ editAll place f extra others := by
  induction nodes with
  | nil => rfl
  | cons node nodes ih =>
    show node.edit place f extra :: editAll place f extra (nodes ++ others) = _
    rw [ih]
    rfl

/-- in the part that is present, other places than those of the tree do not count -/
theorem editAll_restrictAll {nodes : List Node} (present : List NodeKind)
    (absent : place ∉ kindsAll nodes) :
    editAll place f extra (restrictAll present nodes) = restrictAll present nodes :=
  editAll_of_notMem _ fun mem => absent ((kindsAll_restrictAll_sublist present nodes).subset mem)

end

/-- a kind that does not occur may as well be present -/
theorem restrictAll_cons_of_notMem {kind : NodeKind} {nodes : List Node}
    (present : List NodeKind) (absent : kind ∉ kindsAll nodes) :
    restrictAll (kind :: present) nodes = restrictAll present nodes := by
  refine restrictAll_congr nodes fun other mem => ?_
  have differs : other ≠ kind := fun same => absent (same ▸ mem)
  simp [differs]

end Node

/-! ## places -/

/-- what is around a child of a node -/
structure Frame where
  info : NodeInfo
  before : List Node
  after : List Node

namespace Node

/-- a tree with a node put in its place -/
def plug : List Frame → Node → Node
  | [], node => node
  | frame :: frames, node => .mk frame.info (frame.before ++ plug frames node :: frame.after)

@[simp] theorem plug_append (frames others : List Frame) (node : Node) :
    plug (frames ++ others) node = plug frames (plug others node) := by
  induction frames with
  | nil => rfl
  | cons frame frames ih =>
    show Node.mk frame.info (frame.before ++ plug (frames ++ others) node :: frame.after) = _
    rw [ih]
    rfl

@[simp] theorem kinds_plug_cons (frame : Frame) (frames : List Frame) (node : Node) :
    (plug (frame :: frames) node).kinds =
      frame.info.kind ::
        (kindsAll frame.before ++ ((plug frames node).kinds ++ kindsAll frame.after)) := by
  show frame.info.kind :: kindsAll (frame.before ++ plug frames node :: frame.after) = _
  rw [kindsAll_append]
  rfl

theorem kinds_subset_plug (frames : List Frame) (node : Node) :
    node.kinds ⊆ (plug frames node).kinds := by
  induction frames with
  | nil => exact List.Subset.refl _
  | cons frame frames ih =>
    rw [kinds_plug_cons]
    exact fun kind mem => List.mem_cons_of_mem _
      (List.mem_append_right _ (List.mem_append_left _ (ih mem)))

/-- the kinds of a tree come from those of the node in its place -/
theorem kinds_plug_congr (frames : List Frame) {node other : Node}
    (same : node.kinds = other.kinds) : (plug frames node).kinds = (plug frames other).kinds := by
  induction frames with
  | nil => exact same
  | cons frame frames ih => rw [kinds_plug_cons, kinds_plug_cons, ih]

theorem nodup_of_plug {frames : List Frame} {node : Node} (once : (plug frames node).kinds.Nodup) :
    node.kinds.Nodup := by
  induction frames with
  | nil => exact once
  | cons frame frames ih =>
    rw [kinds_plug_cons] at once
    have inner := (List.nodup_append.1 (List.nodup_cons.1 once).2).2.1
    exact ih (List.nodup_append.1 inner).1

theorem kind_plug_mem {frames : List Frame} {node : Node} {present : List NodeKind}
    (path : ∀ frame ∈ frames, frame.info.kind ∈ present) (here : node.kind ∈ present) :
    (plug frames node).kind ∈ present := by
  cases frames with
  | nil => exact here
  | cons frame frames => exact path frame List.mem_cons_self

/-- a node that is present has what is present of its children -/
theorem restrict_mem_within {frames : List Frame} {node : Node} {present : List NodeKind}
    (path : ∀ frame ∈ frames, frame.info.kind ∈ present) (here : node.kind ∈ present) :
    node.restrict present ∈ ((plug frames node).restrict present).within := by
  induction frames with
  | nil => exact mem_within_self _
  | cons frame frames ih =>
    have deeper := fun other mem => path other (List.mem_cons_of_mem frame mem)
    have inner := ih deeper
    have shown : (plug frames node).kind ∈ present := kind_plug_mem deeper here
    show _ ∈ (Node.mk frame.info
      (restrictAll present (frame.before ++ plug frames node :: frame.after))).within
    rw [restrictAll_append, restrictAll_cons, if_pos shown]
    refine List.mem_cons_of_mem _ ?_
    rw [withinAll_append]
    exact List.mem_append_right _ (List.mem_append_left _ inner)

/-- what is present of a tree comes from what is present of the node in its place -/
theorem restrict_plug_congr {present : List NodeKind} (frames : List Frame) {node other : Node}
    (same : node.restrict present = other.restrict present) (kind : node.kind = other.kind) :
    (plug frames node).restrict present = (plug frames other).restrict present := by
  induction frames with
  | nil => exact same
  | cons frame frames ih =>
    have root : (plug frames node).kind = (plug frames other).kind := by
      cases frames with
      | nil => exact kind
      | cons next frames => rfl
    show Node.mk frame.info (restrictAll _ _) = Node.mk frame.info (restrictAll _ _)
    simp [ih, root]

/-- a change at a kind takes place where the node of that kind is -/
theorem edit_restrict_plug (node : Node) {frames : List Frame} {present : List NodeKind}
    {f : NodeInfo → NodeInfo} {extra : List Node} (once : (plug frames node).kinds.Nodup)
    (path : ∀ frame ∈ frames, frame.info.kind ∈ present) (here : node.kind ∈ present)
    {later : List NodeKind} {changed : Node} (grows : ∀ kind ∈ present, kind ∈ later)
    (new : ∀ kind ∈ later, kind ∉ present → kind ∈ node.kinds)
    (sameKind : changed.kind = node.kind)
    (inside : (node.restrict present).edit node.kind f extra = changed.restrict later) :
    ((plug frames node).restrict present).edit node.kind f extra =
      (plug frames changed).restrict later := by
  induction frames with
  | nil => exact inside
  | cons frame frames ih =>
    have deeper := fun other mem => path other (List.mem_cons_of_mem frame mem)
    have inner : node.kinds ⊆ (plug frames node).kinds := kinds_subset_plug frames node
    rw [kinds_plug_cons] at once
    have root := (List.nodup_cons.1 once).1
    obtain ⟨-, rest, apart⟩ := List.nodup_append.1 (List.nodup_cons.1 once).2
    obtain ⟨onceInner, -, behind⟩ := List.nodup_append.1 rest
    have notBefore {kind : NodeKind} (mem : kind ∈ node.kinds) : kind ∉ kindsAll frame.before :=
      fun other => apart _ other _ (List.mem_append_left _ (inner mem)) rfl
    have notAfter {kind : NodeKind} (mem : kind ∈ node.kinds) : kind ∉ kindsAll frame.after :=
      fun other => behind _ (inner mem) _ other rfl
    have rootDiffers : frame.info.kind ≠ node.kind := by
      intro same
      rw [same] at root
      exact root (List.mem_append_right _ (List.mem_append_left _ (inner node.kind_mem_kinds)))
    have sameBefore : restrictAll later frame.before = restrictAll present frame.before :=
      restrictAll_congr _ fun kind mem =>
        ⟨fun there => Decidable.byContradiction fun absent =>
          notBefore (new kind there absent) mem, grows kind⟩
    have sameAfter : restrictAll later frame.after = restrictAll present frame.after :=
      restrictAll_congr _ fun kind mem =>
        ⟨fun there => Decidable.byContradiction fun absent =>
          notAfter (new kind there absent) mem, grows kind⟩
    have shown : (plug frames node).kind ∈ present := kind_plug_mem deeper here
    have shownToo : (plug frames changed).kind ∈ later :=
      kind_plug_mem (fun other mem => grows _ (deeper other mem)) (sameKind ▸ grows _ here)
    show edit _ _ _ (.mk frame.info
        (restrictAll present (frame.before ++ plug frames node :: frame.after))) =
      Node.mk frame.info (restrictAll later (frame.before ++ plug frames changed :: frame.after))
    unfold edit
    rw [if_neg rootDiffers, restrictAll_append, restrictAll_append, restrictAll_cons,
      restrictAll_cons, if_pos shown, if_pos shownToo, editAll_append, sameBefore, sameAfter,
      editAll_restrictAll present (notBefore node.kind_mem_kinds), ← ih onceInner deeper]
    show Node.mk frame.info (_ ++ edit _ _ _ _ :: editAll _ _ _ _) = _
    rw [editAll_restrictAll present (notAfter node.kind_mem_kinds)]

/-- what is hung below a node that is present makes its kind present -/
theorem hang_restrict {frames : List Frame} {info leaf : NodeInfo} {before after below : List Node}
    {present : List NodeKind}
    (once : (plug frames (.mk info (before ++ .mk leaf below :: after))).kinds.Nodup)
    (path : ∀ frame ∈ frames, frame.info.kind ∈ present) (here : info.kind ∈ present)
    (absent : ∀ kind ∈ (Node.mk leaf below).kinds, kind ∉ present)
    (later : ∀ kind ∈ kindsAll after, kind ∉ present) :
    ((plug frames (.mk info (before ++ .mk leaf below :: after))).restrict present).edit
        info.kind (fun own => own) [.mk leaf []] =
      (plug frames (.mk info (before ++ .mk leaf below :: after))).restrict
        (leaf.kind :: present) := by
  have split : kindsAll (before ++ .mk leaf below :: after) =
      kindsAll before ++ (leaf.kind :: (kindsAll below ++ kindsAll after)) := by
    rw [kindsAll_append]
    rfl
  have inner := nodup_of_plug once
  have children := (List.nodup_cons.1 inner).2
  have root := (List.nodup_cons.1 inner).1
  rw [split] at children root
  obtain ⟨-, leafOnce, apart⟩ := List.nodup_append.1 children
  have notBefore : leaf.kind ∉ kindsAll before :=
    fun mem => apart _ mem _ List.mem_cons_self rfl
  have notBelow : leaf.kind ∉ kindsAll below :=
    fun mem => (List.nodup_cons.1 leafOnce).1 (List.mem_append_left _ mem)
  have notAfter : leaf.kind ∉ kindsAll after :=
    fun mem => (List.nodup_cons.1 leafOnce).1 (List.mem_append_right _ mem)
  have notRoot : info.kind ∉ kindsAll before := fun mem => root (List.mem_append_left _ mem)
  have noneBelow : restrictAll present below = [] :=
    restrictAll_eq_nil fun kind mem => absent kind (List.mem_cons_of_mem _ mem)
  have gone : (Node.mk leaf below).kind ∉ present := absent _ List.mem_cons_self
  have come : (Node.mk leaf below).kind ∈ leaf.kind :: present := List.mem_cons_self
  refine edit_restrict_plug (.mk info (before ++ .mk leaf below :: after)) once path here
    (fun kind => List.mem_cons_of_mem _) (fun kind there new => ?_) rfl ?_
  · rcases List.mem_cons.1 there with rfl | there
    · refine List.mem_cons_of_mem _ ?_
      rw [split]
      exact List.mem_append_right _ List.mem_cons_self
    · exact absurd there new
  · show edit info.kind _ _ (.mk info (restrictAll present (before ++ .mk leaf below :: after))) =
      Node.mk info (restrictAll (leaf.kind :: present) (before ++ .mk leaf below :: after))
    unfold edit
    rw [if_pos rfl, restrictAll_of_absent before gone later, restrictAll_append, restrictAll_cons,
      if_pos come, restrictAll_cons_of_notMem present notBefore,
      restrictAll_cons_of_notMem present notAfter, restrictAll_eq_nil later,
      editAll_restrictAll present notRoot]
    unfold restrict
    rw [restrictAll_cons_of_notMem present notBelow, noneBelow]

/-- what changes in a node that is present changes in its place -/
theorem revise_restrict {frames : List Frame} {info : NodeInfo} {children : List Node}
    {present : List NodeKind} {f : NodeInfo → NodeInfo} (same : (f info).kind = info.kind)
    (once : (plug frames (.mk info children)).kinds.Nodup)
    (path : ∀ frame ∈ frames, frame.info.kind ∈ present) (here : info.kind ∈ present) :
    ((plug frames (.mk info children)).restrict present).edit info.kind f [] =
      (plug frames (.mk (f info) children)).restrict present := by
  have inner := nodup_of_plug once
  have notBelow := (List.nodup_cons.1 inner).1
  refine edit_restrict_plug (.mk info children) once path here (fun _ there => there)
    (fun _ there new => absurd there new) same ?_
  show edit info.kind _ _ (.mk info (restrictAll present children)) =
    Node.mk (f info) (restrictAll present children)
  unfold edit
  rw [if_pos rfl, List.append_nil, editAll_restrictAll present notBelow]

end Node

end Baskets
