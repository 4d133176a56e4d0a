import Mathlib.Logic.Relation
import Baskets.Proofs.Generator.Adding

/-!
# The graph of a generator

A node may hang below several others, and one that hangs below none keeps its number and may become
active all the same.  So the slots of a generator hold a graph, and only what is found from the root
is the tree of the decoder.  In this graph children have greater numbers than their parents
(`Generator.Ascending`): no way comes back to where it began, and the walks are never cut short
(`Ascending.tree_eq`).  `getElem?_addUnder` says what becomes of every slot when a tree is added.
-/

namespace Baskets

namespace Node

/-- no node in the tree has two children of one kind -/
def SiblingsDiffer (node : Node) : Prop :=
  ∀ part ∈ node.within, (part.children.map kind).Nodup

instance (node : Node) : Decidable node.SiblingsDiffer :=
  inferInstanceAs (Decidable (∀ part ∈ node.within, _))

end Node

/-! ## trees that are laid out -/

namespace Numbered

mutual

/-- the tree with the numbers that its nodes get when it is laid out from `next` on -/
def ofNode (next : Nat) : Node → Numbered
  | .mk info children => .mk next info (ofNodes (next + 1) children)

def ofNodes (next : Nat) : List Node → List Numbered
  | [] => []
  | node :: nodes => ofNode next node :: ofNodes (next + node.size) nodes

end

/-- what a generator holds of the root of a tree -/
def slot (tree : Numbered) : Slot := { info := tree.info, children := tree.children.map id }

@[simp] theorem id_ofNode (next : Nat) (node : Node) : (ofNode next node).id = next := by
  cases node with
  | mk info children => rfl

@[simp] theorem map_id_ofNodes (next : Nat) (list : List Node) :
    (ofNodes next list).map id = Slot.numbers next list := by
  induction list generalizing next with
  | nil => rfl
  | cons node list ih =>
    show (ofNode next node).id :: (ofNodes (next + node.size) list).map id = _
    rw [id_ofNode, ih]
    rfl

mutual

theorem node_ofNode (next : Nat) : (node : Node) → (ofNode next node).node = node
  | .mk info children => congrArg (Node.mk info) (nodes_ofNodes (next + 1) children)

theorem nodes_ofNodes (next : Nat) : (list : List Node) → nodes (ofNodes next list) = list
  | [] => rfl
  | node :: list => by
    show (ofNode next node).node :: nodes (ofNodes (next + node.size) list) = node :: list
    rw [node_ofNode next node, nodes_ofNodes (next + node.size) list]

end

mutual

/-- a node has the first number that is left, and its children have the next ones -/
theorem ids_ofNode (next : Nat) : (node : Node) →
    (ofNode next node).within.map id = List.range' next node.size
  | .mk info children => by
    show next :: (withinAll (ofNodes (next + 1) children)).map id = _
    rw [idsAll_ofNodes (next + 1) children, Node.size, Nat.add_comm 1 (Node.sizeAll children),
      List.range'_succ]

theorem idsAll_ofNodes (next : Nat) : (list : List Node) →
    (withinAll (ofNodes next list)).map id = List.range' next (Node.sizeAll list)
  | [] => rfl
  | node :: list => by
    show ((ofNode next node).within ++ withinAll (ofNodes (next + node.size) list)).map id = _
    rw [List.map_append, ids_ofNode next node, idsAll_ofNodes (next + node.size) list,
      List.range'_append_1]
    rfl

end

mutual

theorem slots_ofNode (next : Nat) : (node : Node) →
    (ofNode next node).within.map slot = Slot.ofNode next node
  | .mk info children => by
    show slot (.mk next info _) :: (withinAll (ofNodes (next + 1) children)).map slot = _
    rw [slotsAll_ofNodes (next + 1) children]
    unfold slot
    show ({ info, children := (ofNodes (next + 1) children).map id } : Slot) :: _ = _
    rw [map_id_ofNodes]
    rfl

theorem slotsAll_ofNodes (next : Nat) : (list : List Node) →
    (withinAll (ofNodes next list)).map slot = Slot.ofNodes next list
  | [] => rfl
  | node :: list => by
    show ((ofNode next node).within ++ withinAll (ofNodes (next + node.size) list)).map slot = _
    rw [List.map_append, slots_ofNode next node, slotsAll_ofNodes (next + node.size) list]
    rfl

end

theorem mem_ids_ofNode {next id : Nat} {node : Node} :
    (∃ part ∈ (ofNode next node).within, part.id = id) ↔ next ≤ id ∧ id < next + node.size := by
  rw [← List.mem_map, ids_ofNode, List.mem_range'_1]

theorem le_id_of_mem_ofNodes {next : Nat} {list : List Node} {part : Numbered}
    (mem : part ∈ withinAll (ofNodes next list)) : next ≤ part.id := by
  have inside : part.id ∈ (withinAll (ofNodes next list)).map id := List.mem_map_of_mem mem
  rw [idsAll_ofNodes, List.mem_range'_1] at inside
  exact inside.1

mutual

theorem id_lt_child_ofNode (next : Nat) {part child : Numbered} : (node : Node) →
    part ∈ (ofNode next node).within → child ∈ part.children → part.id < child.id
  | .mk info children, inside, mem => by
    rcases List.mem_cons.1 inside with rfl | inside
    · have below : child ∈ withinAll (ofNodes (next + 1) children) :=
        mem_withinAll.2 ⟨child, mem, child.mem_within_self⟩
      exact le_id_of_mem_ofNodes below
    · exact id_lt_child_ofNodes (next + 1) children inside mem

theorem id_lt_child_ofNodes (next : Nat) {part child : Numbered} : (list : List Node) →
    part ∈ withinAll (ofNodes next list) → child ∈ part.children → part.id < child.id
  | node :: list, inside, mem => by
    rcases List.mem_append.1 inside with inside | inside
    · exact id_lt_child_ofNode next node inside mem
    · exact id_lt_child_ofNodes (next + node.size) list inside mem

end

end Numbered

namespace Generator

variable {g h : Generator} {node : Node} {kind parent : NodeKind} {id : Nat}

@[simp] theorem size_layOut (g : Generator) (node : Node) :
    (g.layOut node).slots.size = g.slots.size + node.size := by
  show (g.slots ++ _).size = _
  rw [Array.size_append]
  show _ + (Slot.ofNode _ node).length = _
  rw [Slot.length_ofNode]

theorem getElem?_layOut_of_lt (node : Node) (old : id < g.slots.size) :
    (g.layOut node).slots[id]? = g.slots[id]? :=
  Array.getElem?_append_left old

/-- **Laying out** keeps the shape of a tree. -/
theorem holds_layOut (g : Generator) (node : Node) :
    (g.layOut node).Holds (.ofNode g.slots.size node) := by
  intro part inside
  refine ⟨?_, fun child mem => Numbered.id_lt_child_ofNode _ node inside mem⟩
  obtain ⟨i, found⟩ := List.mem_iff_getElem?.1 inside
  have id : part.id = g.slots.size + i := by
    have ids := congrArg (·[i]?) (Numbered.ids_ofNode g.slots.size node)
    rw [List.getElem?_map, found] at ids
    obtain ⟨bound, same⟩ := List.getElem?_eq_some_iff.1 ids.symm
    exact same.symm.trans ((List.getElem_range' bound).trans (by rw [Nat.one_mul]))
  have slots := congrArg (·[i]?) (Numbered.slots_ofNode g.slots.size node)
  rw [List.getElem?_map, found] at slots
  show (g.slots ++ _)[part.id]? = _
  rw [id, Array.getElem?_append_right (Nat.le_add_right _ _), Nat.add_sub_cancel_left,
    List.getElem?_toArray, ← slots]
  rfl

/-- every new number belongs to a node of the tree that was laid out -/
theorem exists_part_of_layOut (new : g.slots.size ≤ id) (bound : id < (g.layOut node).slots.size) :
    ∃ part ∈ (Numbered.ofNode g.slots.size node).within,
      part.id = id ∧ (g.layOut node).Holds part := by
  rw [size_layOut] at bound
  obtain ⟨part, inside, same⟩ := Numbered.mem_ids_ofNode.2 ⟨new, bound⟩
  exact ⟨part, inside, same, (holds_layOut g node).part inside⟩

/-! ## kinds -/

/-- the kind of a node -/
def kindAt (g : Generator) (id : Nat) : NodeKind := ((g.info? id).getD default).kind

theorem lt_size_of_hasKind (is : g.hasKind kind id = true) : id < g.slots.size := by
  unfold hasKind info? at is
  cases there : g.slots[id]? with
  | none =>
    rw [there] at is
    cases is
  | some slot => exact (Array.getElem?_eq_some_iff.1 there).1

theorem hasKind_eq (bound : id < g.slots.size) :
    g.hasKind kind id = decide (g.kindAt id = kind) := by
  unfold hasKind kindAt info?
  rw [Array.getElem?_eq_getElem bound]
  rfl

theorem kindAt_of_hasKind (is : g.hasKind kind id = true) : g.kindAt id = kind := by
  rw [hasKind_eq (lt_size_of_hasKind is)] at is
  exact of_decide_eq_true is

theorem Holds.kindAt {tree : Numbered} (holds : g.Holds tree) : g.kindAt tree.id = tree.kind := by
  unfold Generator.kindAt
  rw [holds.info?]
  rfl

/-- what is found from a node is of the kind, and on a way down from there -/
theorem of_mem_nodesWithin {depth start : Nat} (mem : id ∈ g.nodesWithin kind depth start) :
    g.hasKind kind id = true ∧
      Relation.ReflTransGen (fun id child => child ∈ g.children id) start id := by
  induction depth generalizing start with
  | zero =>
    unfold nodesWithin at mem
    split at mem
    · rename_i here
      rw [List.mem_singleton.1 mem]
      exact ⟨here, .refl⟩
    · cases mem
  | succ depth ih =>
    unfold nodesWithin at mem
    split at mem
    · rename_i here
      rw [List.mem_singleton.1 mem]
      exact ⟨here, .refl⟩
    · obtain ⟨child, below, found⟩ := List.mem_flatMap.1 mem
      obtain ⟨is, way⟩ := ih found
      exact ⟨is, way.head below⟩

theorem of_mem_nodesOf (mem : id ∈ g.nodesOf kind) : g.hasKind kind id = true ∧
    Relation.ReflTransGen (fun id child => child ∈ g.children id) 0 id :=
  of_mem_nodesWithin (List.mem_eraseDups.1 mem)

theorem childOf?_eq_none : g.childOf? kind id = none ↔
    ∀ child ∈ g.children id, ¬ g.hasKind kind child = true :=
  List.find?_eq_none

/-! ## adding a tree -/

/-- the places that a tree with a root of some kind is hung at -/
def vacant (g : Generator) (kind parent : NodeKind) : List Nat :=
  (if parent = kind then [] else g.nodesOf parent).filter fun place =>
    (g.childOf? kind place).isNone

theorem of_mem_vacant (mem : id ∈ g.vacant kind parent) :
    g.hasKind parent id = true ∧ parent ≠ kind ∧ g.childOf? kind id = none := by
  obtain ⟨place, vacancy⟩ := List.mem_filter.1 mem
  split at place
  · cases place
  · rename_i differs
    exact ⟨(of_mem_nodesOf place).1, differs, Option.isNone_iff_eq_none.1 vacancy⟩

theorem nodup_eraseDups (list : List Nat) : list.eraseDups.Nodup := by
  cases list with
  | nil => exact List.nodup_nil
  | cons first rest =>
    rw [List.eraseDups_cons]
    refine List.nodup_cons.2 ⟨fun again => ?_, nodup_eraseDups _⟩
    have kept := (List.mem_filter.1 (List.mem_eraseDups.1 again)).2
    simp at kept
termination_by list.length
decreasing_by
  have := List.length_filter_le (fun other => !other == first) rest
  rw [List.length_cons]
  omega

theorem nodup_vacant (g : Generator) (kind parent : NodeKind) : (g.vacant kind parent).Nodup := by
  refine List.Nodup.filter _ ?_
  split
  · exact List.nodup_nil
  · exact nodup_eraseDups _

theorem getElem?_attachAll (child : Nat) {places : List Nat} (once : places.Nodup) (g : Generator)
    (id : Nat) : (places.foldl (fun g place => g.attach child place) g).slots[id]? =
      if id ∈ places then g.slots[id]?.map fun slot =>
        { slot with children := slot.children ++ [child] }
      else g.slots[id]? := by
  induction places generalizing g with
  | nil => rfl
  | cons place places ih =>
    obtain ⟨new, onceToo⟩ := List.nodup_cons.1 once
    rw [List.foldl_cons, ih onceToo, getElem?_attach]
    by_cases here : place = id
    · subst here
      rw [if_neg new, if_pos rfl, if_pos List.mem_cons_self]
    · have there : id ∈ place :: places ↔ id ∈ places := by
        rw [List.mem_cons, or_iff_right (Ne.symm here)]
      simp only [if_neg here, there]

@[simp] theorem size_attachAll (child : Nat) (places : List Nat) (g : Generator) :
    (places.foldl (fun g place => g.attach child place) g).slots.size = g.slots.size := by
  induction places generalizing g with
  | nil => rfl
  | cons place places ih => exact (ih _).trans Array.size_modify

theorem slots_addUnder (g : Generator) (node : Node) (parent : NodeKind) :
    (g.addUnder node parent).2.slots =
      ((g.vacant node.kind parent).foldl (fun grown place => grown.attach g.slots.size place)
        (g.layOut node)).slots := by
  unfold addUnder vacant
  generalize (if parent = node.kind then [] else g.nodesOf parent) = places
  dsimp only
  split
  · rfl
  · split <;> rfl

@[simp] theorem size_addUnder (g : Generator) (node : Node) (parent : NodeKind) :
    (g.addUnder node parent).2.slots.size = g.slots.size + node.size := by
  simp [slots_addUnder]

/-- **Adding a tree.**  Its slots come behind the others, and at every place that is vacant its root
comes behind the other children. -/
theorem getElem?_addUnder (g : Generator) (node : Node) (parent : NodeKind) (id : Nat) :
    (g.addUnder node parent).2.slots[id]? =
      if id ∈ g.vacant node.kind parent then g.slots[id]?.map fun slot =>
        { slot with children := slot.children ++ [g.slots.size] }
      else (g.layOut node).slots[id]? := by
  rw [slots_addUnder, getElem?_attachAll _ (nodup_vacant g node.kind parent)]
  by_cases here : id ∈ g.vacant node.kind parent
  · have old := lt_size_of_hasKind (of_mem_vacant here).1
    rw [if_pos here, if_pos here, getElem?_layOut_of_lt node old]
  · rw [if_neg here, if_neg here]

/-- every node is as it was, with the children it had in front of others -/
def Grows (g h : Generator) : Prop :=
  ∀ (id : Nat) (slot : Slot), g.slots[id]? = some slot →
    ∃ later, h.slots[id]? = some later ∧ later.info = slot.info ∧ slot.children <+: later.children

theorem grows_of_slots_eq (same : h.slots = g.slots) : Grows g h :=
  fun _ slot there => ⟨slot, same ▸ there, rfl, List.prefix_refl _⟩

theorem grows_addUnder (g : Generator) (node : Node) (parent : NodeKind) :
    Grows g (g.addUnder node parent).2 := by
  intro id slot there
  rw [getElem?_addUnder]
  split
  · rw [there]
    exact ⟨_, rfl, rfl, List.prefix_append _ _⟩
  · rw [getElem?_layOut_of_lt node (Array.getElem?_eq_some_iff.1 there).1]
    exact ⟨slot, there, rfl, List.prefix_refl _⟩

@[simp] theorem info?_addUnder (g : Generator) (node : Node) (parent : NodeKind) (id : Nat) :
    (g.addUnder node parent).2.info? id = (g.layOut node).info? id := by
  unfold info?
  rw [getElem?_addUnder]
  split
  · rename_i here
    rw [getElem?_layOut_of_lt node (lt_size_of_hasKind (of_mem_vacant here).1), Option.map_map]
    rfl
  · rfl

theorem children_addUnder_of_mem (here : id ∈ g.vacant node.kind parent) :
    (g.addUnder node parent).2.children id = g.children id ++ [g.slots.size] := by
  have old := lt_size_of_hasKind (of_mem_vacant here).1
  unfold children
  rw [getElem?_addUnder, if_pos here, Array.getElem?_eq_getElem old]
  rfl

theorem children_addUnder_of_notMem (elsewhere : id ∉ g.vacant node.kind parent) :
    (g.addUnder node parent).2.children id = (g.layOut node).children id := by
  unfold children
  rw [getElem?_addUnder, if_neg elsewhere]

/-! ## children after their parents -/

/-- children are in the generator, with greater numbers than their parents -/
def Ascending (g : Generator) : Prop :=
  ∀ id, ∀ child ∈ g.children id, id < child ∧ child < g.slots.size

theorem lt_size_of_mem_children {child : Nat} (mem : child ∈ g.children id) :
    id < g.slots.size := by
  unfold children at mem
  cases there : g.slots[id]? with
  | none =>
    rw [there] at mem
    cases mem
  | some slot => exact (Array.getElem?_eq_some_iff.1 there).1

theorem children_layOut_of_lt (node : Node) (old : id < g.slots.size) :
    (g.layOut node).children id = g.children id := by
  unfold children
  rw [getElem?_layOut_of_lt node old]

theorem kindAt_layOut_of_lt (node : Node) (old : id < g.slots.size) :
    (g.layOut node).kindAt id = g.kindAt id := by
  unfold kindAt info?
  rw [getElem?_layOut_of_lt node old]

@[simp] theorem kindAt_addUnder (g : Generator) (node : Node) (parent : NodeKind) (id : Nat) :
    (g.addUnder node parent).2.kindAt id = (g.layOut node).kindAt id := by
  unfold kindAt
  simp

theorem ascending_new : Ascending {} := by
  intro id child mem
  cases id with
  | zero => cases mem
  | succ id => cases mem

namespace Ascending

theorem of_children_eq (ascending : g.Ascending) (children : h.children = g.children)
    (size : g.slots.size ≤ h.slots.size) : h.Ascending := by
  intro id child mem
  rw [children] at mem
  obtain ⟨later, bound⟩ := ascending id child mem
  exact ⟨later, Nat.lt_of_lt_of_le bound size⟩

theorem of_slots_eq (ascending : g.Ascending) (same : h.slots = g.slots) : h.Ascending := by
  unfold Ascending children
  rw [same]
  exact ascending

theorem layOut (ascending : g.Ascending) (node : Node) : (g.layOut node).Ascending := by
  intro id child mem
  by_cases old : id < g.slots.size
  · rw [children_layOut_of_lt node old] at mem
    obtain ⟨later, bound⟩ := ascending id child mem
    rw [size_layOut]
    exact ⟨later, Nat.lt_add_right _ bound⟩
  · obtain ⟨part, -, rfl, holds⟩ :=
      exists_part_of_layOut (Nat.le_of_not_lt old) (lt_size_of_mem_children mem)
    rw [holds.children] at mem
    obtain ⟨inner, below, rfl⟩ := List.mem_map.1 mem
    obtain ⟨there, later⟩ := holds.child below
    exact ⟨later, there.lt_size⟩

theorem addUnder (ascending : g.Ascending) (node : Node) (parent : NodeKind) :
    (g.addUnder node parent).2.Ascending := by
  intro id child mem
  have size : (g.addUnder node parent).2.slots.size = (g.layOut node).slots.size := by
    simp
  rw [size]
  by_cases here : id ∈ g.vacant node.kind parent
  · have old := lt_size_of_hasKind (of_mem_vacant here).1
    rw [children_addUnder_of_mem here] at mem
    rcases List.mem_append.1 mem with mem | mem
    · rw [← children_layOut_of_lt node old] at mem
      exact ascending.layOut node id child mem
    · rw [List.mem_singleton.1 mem]
      have root := (holds_layOut g node).lt_size
      rw [Numbered.id_ofNode] at root
      exact ⟨old, root⟩
  · rw [children_addUnder_of_notMem here] at mem
    exact ascending.layOut node id child mem

/-! ### ways down -/

theorem lt_of_transGen (ascending : g.Ascending) {below : Nat}
    (way : Relation.TransGen (fun id child => child ∈ g.children id) id below) : id < below := by
  induction way with
  | single mem => exact (ascending _ _ mem).1
  | tail _ mem ih => exact Nat.lt_trans ih (ascending _ _ mem).1

/-- one level more shows no more of a tree that is walked deep enough -/
theorem treeWithin_succ (ascending : g.Ascending) {depth : Nat}
    (deep : g.slots.size - id ≤ depth) : g.treeWithin (depth + 1) id = g.treeWithin depth id := by
  induction depth generalizing id with
  | zero =>
    have none : g.children id = [] := by
      refine List.eq_nil_iff_forall_not_mem.2 fun child mem => ?_
      have := lt_size_of_mem_children mem
      omega
    unfold treeWithin
    rw [none]
    rfl
  | succ depth ih =>
    show Node.mk _ ((g.children id).map (g.treeWithin (depth + 1))) =
      Node.mk _ ((g.children id).map (g.treeWithin depth))
    congr 1
    refine List.map_congr_left fun child mem => ih ?_
    obtain ⟨later, -⟩ := ascending id child mem
    omega

theorem treeWithin_eq_tree (ascending : g.Ascending) {depth : Nat}
    (deep : g.slots.size - id ≤ depth) : g.treeWithin depth id = g.tree id := by
  induction depth, deep using Nat.le_induction with
  | base => rfl
  | succ depth deep ih => rw [ascending.treeWithin_succ deep, ih]

/-- **Walks are whole**: below a node stand the trees of all its children. -/
theorem tree_eq (ascending : g.Ascending) (id : Nat) :
    g.tree id = .mk ((g.info? id).getD default) ((g.children id).map g.tree) := by
  have more := ascending.treeWithin_succ (Nat.le_refl (g.slots.size - id))
  refine more.symm.trans ?_
  show Node.mk _ ((g.children id).map (g.treeWithin (g.slots.size - id))) = _
  congr 1
  refine List.map_congr_left fun child mem => ascending.treeWithin_eq_tree ?_
  obtain ⟨later, -⟩ := ascending id child mem
  omega

/-- what stands in the tree below a node is the tree below some node -/
theorem exists_tree_of_mem_within (ascending : g.Ascending) {part : Node}
    (inside : part ∈ (g.tree id).within) : ∃ own, part = g.tree own := by
  induction above : g.slots.size - id using Nat.strongRecOn generalizing id with
  | ind above_ ih =>
    have whole := ascending.tree_eq id
    rw [whole] at inside
    rcases List.mem_cons.1 inside with rfl | inside
    · exact ⟨id, whole.symm⟩
    · obtain ⟨_, below, inside⟩ := Node.mem_withinAll.1 inside
      obtain ⟨child, mem, rfl⟩ := List.mem_map.1 below
      obtain ⟨later, bound⟩ := ascending id child mem
      exact ih (g.slots.size - child) (by omega) inside rfl

end Ascending

/-! ## children of different kinds -/

/-- no node has two children of one kind -/
def SiblingsDiffer (g : Generator) : Prop := ∀ id, ((g.children id).map g.kindAt).Nodup

@[simp] theorem kind_tree (g : Generator) (id : Nat) : (g.tree id).kind = g.kindAt id := by
  unfold tree
  cases g.slots.size - id <;> rfl

namespace SiblingsDiffer

theorem of_slots_eq (differ : g.SiblingsDiffer) (same : h.slots = g.slots) :
    h.SiblingsDiffer := by
  unfold SiblingsDiffer children kindAt info?
  rw [same]
  exact differ

theorem layOut (differ : g.SiblingsDiffer) (ascending : g.Ascending)
    (node_ : node.SiblingsDiffer) : (g.layOut node).SiblingsDiffer := by
  intro id
  by_cases old : id < g.slots.size
  · have kinds : (g.children id).map (g.layOut node).kindAt = (g.children id).map g.kindAt :=
      List.map_congr_left fun child mem => kindAt_layOut_of_lt node (ascending id child mem).2
    rw [children_layOut_of_lt node old, kinds]
    exact differ id
  · by_cases bound : id < (g.layOut node).slots.size
    · obtain ⟨part, inside, rfl, holds⟩ :=
        exists_part_of_layOut (Nat.le_of_not_lt old) bound
      have own := node_ part.node (Numbered.node_ofNode g.slots.size node ▸
        Numbered.node_within _ inside)
      rw [holds.children, List.map_map]
      have kinds : part.children.map ((g.layOut node).kindAt ∘ Numbered.id) =
          part.node.children.map Node.kind := by
        cases part with
        | mk own info below =>
          show _ = (Numbered.nodes below).map Node.kind
          rw [Numbered.nodes_eq_map, List.map_map]
          refine List.map_congr_left fun child mem => ?_
          exact (holds.child mem).1.kindAt.trans child.kind_node.symm
      rw [kinds]
      exact own
    · have none : (g.layOut node).children id = [] :=
        List.eq_nil_iff_forall_not_mem.2 fun _ mem => bound (lt_size_of_mem_children mem)
      rw [none]
      exact List.nodup_nil

theorem addUnder (differ : g.SiblingsDiffer) (ascending : g.Ascending)
    (node_ : node.SiblingsDiffer) (parent : NodeKind) :
    (g.addUnder node parent).2.SiblingsDiffer := by
  intro id
  have kinds : (g.addUnder node parent).2.kindAt = (g.layOut node).kindAt :=
    funext (kindAt_addUnder g node parent)
  have laid := differ.layOut ascending node_ id
  rw [kinds]
  by_cases here : id ∈ g.vacant node.kind parent
  · obtain ⟨is, -, vacancy⟩ := of_mem_vacant here
    have old := lt_size_of_hasKind is
    rw [children_layOut_of_lt node old] at laid
    rw [children_addUnder_of_mem here, List.map_append]
    refine List.nodup_append.2 ⟨laid, List.nodup_singleton _, fun kind front other back => ?_⟩
    obtain ⟨child, mem, rfl⟩ := List.mem_map.1 front
    have bound := (ascending id child mem).2
    have root := (holds_layOut g node).kindAt
    rw [Numbered.id_ofNode, ← Numbered.kind_node, Numbered.node_ofNode] at root
    rw [List.mem_singleton.1 back, root, kindAt_layOut_of_lt node bound]
    intro same
    refine childOf?_eq_none.1 vacancy child mem ?_
    rw [hasKind_eq bound, same]
    exact decide_eq_true rfl
  · rw [children_addUnder_of_notMem here]
    exact laid

/-- the tree of the decoder has no node with two children of one kind either -/
theorem node_siblingsDiffer (differ : g.SiblingsDiffer) (ascending : g.Ascending) :
    g.node.SiblingsDiffer := by
  intro part inside
  obtain ⟨own, rfl⟩ := ascending.exists_tree_of_mem_within inside
  rw [ascending.tree_eq]
  show (((g.children own).map g.tree).map Node.kind).Nodup
  rw [List.map_map]
  have kinds : (g.children own).map (Node.kind ∘ g.tree) = (g.children own).map g.kindAt :=
    List.map_congr_left fun child _ => g.kind_tree child
  rw [kinds]
  exact differ own

end SiblingsDiffer

end Generator

end Baskets
