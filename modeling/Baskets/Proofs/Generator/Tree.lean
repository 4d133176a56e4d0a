import Baskets.Proofs.Node.Present
import Baskets.Proofs.Reading.Mirror

/-!
# The tree in a generator

The slots of a generator hold a tree: `Generator.Holds` says which, with the number of every node
in it.  Children have greater numbers than their parents, so the walks of the generator see the
whole tree.  Where no two nodes are of one kind, a node is added below the one place that has the
kind of the active node, and the effect on the tree is that of `Node.edit`.
-/

namespace Baskets

/-- a tree of nodes with their numbers -/
inductive Numbered where
  | mk (id : Nat) (info : NodeInfo) (children : List Numbered)

namespace Numbered

def id : Numbered → Nat
  | .mk id _ _ => id

def info : Numbered → NodeInfo
  | .mk _ info _ => info

def children : Numbered → List Numbered
  | .mk _ _ children => children

def kind (tree : Numbered) : NodeKind := tree.info.kind

mutual

/-- the tree without its numbers -/
def node : Numbered → Node
  | .mk _ info children => .mk info (nodes children)

def nodes : List Numbered → List Node
  | [] => []
  | tree :: trees => tree.node :: nodes trees

end

mutual

/-- a tree and all trees in it -/
def within : Numbered → List Numbered
  | .mk id info children => .mk id info children :: withinAll children

def withinAll : List Numbered → List Numbered
  | [] => []
  | tree :: trees => tree.within ++ withinAll trees

end

theorem mem_within_self (tree : Numbered) : tree ∈ tree.within := by
  cases tree with
  | mk id info children => exact List.mem_cons_self

theorem mem_withinAll {trees : List Numbered} {tree : Numbered} :
    tree ∈ withinAll trees ↔ ∃ child ∈ trees, tree ∈ child.within := by
  induction trees with
  | nil => simp [withinAll]
  | cons first trees ih => simp [withinAll, ih]

@[simp] theorem nodes_eq_map (trees : List Numbered) : nodes trees = trees.map node := by
  induction trees with
  | nil => rfl
  | cons tree trees ih =>
    show tree.node :: nodes trees = _
    rw [ih]
    rfl

@[simp] theorem kind_node (tree : Numbered) : tree.node.kind = tree.kind := by
  cases tree with
  | mk id info children => rfl

mutual

/-- what is in a tree that is in a tree -/
theorem within_trans {inner : Numbered} : (tree : Numbered) → {outer : Numbered} →
    outer ∈ tree.within → inner ∈ outer.within → inner ∈ tree.within
  | .mk id info children, outer, first, second => by
    rcases List.mem_cons.1 first with rfl | first
    · exact second
    · exact List.mem_cons_of_mem _ (withinAll_trans children first second)

theorem withinAll_trans {inner : Numbered} : (trees : List Numbered) → {outer : Numbered} →
    outer ∈ withinAll trees → inner ∈ outer.within → inner ∈ withinAll trees
  | tree :: trees, outer, first, second => by
    rcases List.mem_append.1 first with first | first
    · exact List.mem_append_left _ (within_trans tree first second)
    · exact List.mem_append_right _ (withinAll_trans trees first second)

end

theorem child_within {tree child : Numbered} (mem : child ∈ tree.children) :
    child ∈ tree.within := by
  cases tree with
  | mk _ info children =>
    exact List.mem_cons_of_mem _ (mem_withinAll.2 ⟨child, mem, child.mem_within_self⟩)

mutual

theorem kinds_node : (tree : Numbered) → tree.node.kinds = tree.within.map kind
  | .mk _ info children => congrArg (info.kind :: ·) (kindsAll_nodes children)

theorem kindsAll_nodes : (trees : List Numbered) →
    Node.kindsAll (nodes trees) = (withinAll trees).map kind
  | [] => rfl
  | tree :: trees => by
    show tree.node.kinds ++ Node.kindsAll (nodes trees) = (tree.within ++ withinAll trees).map kind
    rw [kinds_node tree, kindsAll_nodes trees, List.map_append]

end

/-- no two nodes are of one kind -/
def Distinct (tree : Numbered) : Prop := tree.node.kinds.Nodup

theorem Distinct.eq {tree first second : Numbered} (distinct : tree.Distinct)
    (here : first ∈ tree.within) (there : second ∈ tree.within) (same : first.kind = second.kind) :
    first = second := by
  unfold Distinct at distinct
  rw [kinds_node] at distinct
  exact List.inj_on_of_nodup_map distinct here there same

/-! ## changes at one kind -/

mutual

/-- changes what the nodes of a kind hold, and puts more children behind the ones they have -/
def edit (place : NodeKind) (f : NodeInfo → NodeInfo) (extra : List Numbered) :
    Numbered → Numbered
  | .mk id info children =>
    if info.kind = place then .mk id (f info) (editAll place f extra children ++ extra)
    else .mk id info (editAll place f extra children)

def editAll (place : NodeKind) (f : NodeInfo → NodeInfo) (extra : List Numbered) :
    List Numbered → List Numbered
  | [] => []
  | tree :: trees => tree.edit place f extra :: editAll place f extra trees

end

section
variable (place : NodeKind) (f : NodeInfo → NodeInfo) (extra : List Numbered)

@[simp] theorem editAll_eq_map (trees : List Numbered) :
    editAll place f extra trees = trees.map (edit place f extra) := by
  induction trees with
  | nil => rfl
  | cons tree trees ih =>
    show tree.edit place f extra :: editAll place f extra trees = _
    rw [ih]
    rfl

@[simp] theorem id_edit (tree : Numbered) : (tree.edit place f extra).id = tree.id := by
  cases tree with
  | mk own info children =>
    unfold edit
    split <;> rfl

theorem info_edit (tree : Numbered) :
    (tree.edit place f extra).info = if tree.kind = place then f tree.info else tree.info := by
  cases tree with
  | mk own info children =>
    unfold edit
    show _ = if info.kind = place then _ else _
    split <;> rfl

theorem children_edit (tree : Numbered) :
    (tree.edit place f extra).children =
      if tree.kind = place then tree.children.map (edit place f extra) ++ extra
      else tree.children.map (edit place f extra) := by
  cases tree with
  | mk own info children =>
    unfold edit
    rw [editAll_eq_map]
    show _ = if info.kind = place then _ else _
    split <;> rfl

mutual

theorem node_edit : (tree : Numbered) →
    (tree.edit place f extra).node = tree.node.edit place f (nodes extra)
  | .mk _ info children => by
    have below := nodes_editAll children
    show node (edit _ _ _ _) = Node.edit _ _ _ (.mk info (nodes children))
    unfold edit Node.edit
    by_cases here : info.kind = place
    · rw [if_pos here, if_pos here, ← below, nodes_eq_map, nodes_eq_map]
      show Node.mk (f info) (nodes (editAll _ _ _ children ++ _)) = _
      simp
    · rw [if_neg here, if_neg here, ← below]
      rfl

theorem nodes_editAll : (trees : List Numbered) →
    nodes (editAll place f extra trees) = Node.editAll place f (nodes extra) (nodes trees)
  | [] => rfl
  | tree :: trees => by
    show node (edit _ _ _ _) :: nodes (editAll _ _ _ _) =
      Node.edit _ _ _ _ :: Node.editAll _ _ _ _
    rw [node_edit tree, nodes_editAll trees]

end

end

section
variable {place : NodeKind} {f : NodeInfo → NodeInfo} {extra : List Numbered} {part : Numbered}

mutual

/-- what is in a tree after a change was put there, or was in it before -/
theorem of_mem_within_edit : (tree : Numbered) → part ∈ (tree.edit place f extra).within →
    part ∈ withinAll extra ∨ ∃ old ∈ tree.within, part = old.edit place f extra
  | .mk own info children, mem => by
    have inside : part = (mk own info children).edit place f extra ∨
        part ∈ withinAll (editAll place f extra children) ∨ part ∈ withinAll extra := by
      unfold edit at mem ⊢
      by_cases here : info.kind = place
      · rw [if_pos here] at mem ⊢
        rcases List.mem_cons.1 mem with root | mem
        · exact .inl root
        · obtain ⟨child, there, inner⟩ := mem_withinAll.1 mem
          rcases List.mem_append.1 there with there | there
          · exact .inr (.inl (mem_withinAll.2 ⟨child, there, inner⟩))
          · exact .inr (.inr (mem_withinAll.2 ⟨child, there, inner⟩))
      · rw [if_neg here] at mem ⊢
        rcases List.mem_cons.1 mem with root | mem
        · exact .inl root
        · exact .inr (.inl mem)
    rcases inside with root | below | put
    · exact .inr ⟨_, List.mem_cons_self, root⟩
    · rcases of_mem_withinAll_edit children below with put | ⟨old, there, same⟩
      · exact .inl put
      · exact .inr ⟨old, List.mem_cons_of_mem _ there, same⟩
    · exact .inl put

theorem of_mem_withinAll_edit : (trees : List Numbered) →
    part ∈ withinAll (editAll place f extra trees) →
      part ∈ withinAll extra ∨ ∃ old ∈ withinAll trees, part = old.edit place f extra
  | [], mem => absurd mem List.not_mem_nil
  | tree :: trees, mem => by
    rcases List.mem_append.1 mem with mem | mem
    · rcases of_mem_within_edit tree mem with put | ⟨old, there, same⟩
      · exact .inl put
      · exact .inr ⟨old, List.mem_append_left _ there, same⟩
    · rcases of_mem_withinAll_edit trees mem with put | ⟨old, there, same⟩
      · exact .inl put
      · exact .inr ⟨old, List.mem_append_right _ there, same⟩

end

mutual

/-- what was in a tree is in it after a change, and changed -/
theorem edit_mem_within : (tree : Numbered) → part ∈ tree.within →
    part.edit place f extra ∈ (tree.edit place f extra).within
  | .mk own info children, mem => by
    rcases List.mem_cons.1 mem with rfl | mem
    · exact mem_within_self _
    · have below := edit_mem_withinAll children mem
      obtain ⟨child, there, inner⟩ := mem_withinAll.1 below
      have inEdited : child ∈ ((Numbered.mk own info children).edit place f extra).children := by
        rw [children_edit, ← editAll_eq_map]
        split
        · exact List.mem_append_left _ there
        · exact there
      exact within_trans _ (child_within inEdited) inner

theorem edit_mem_withinAll : (trees : List Numbered) → part ∈ withinAll trees →
    part.edit place f extra ∈ withinAll (editAll place f extra trees)
  | tree :: trees, mem => by
    rcases List.mem_append.1 mem with mem | mem
    · exact List.mem_append_left _ (edit_mem_within tree mem)
    · exact List.mem_append_right _ (edit_mem_withinAll trees mem)

end

/-- what is put below the node of a kind is in the tree -/
theorem leaf_mem_within_edit {tree leaf : Numbered} (inside : part ∈ tree.within) :
    leaf ∈ (tree.edit part.kind f [leaf]).within := by
  have below : leaf ∈ (part.edit part.kind f [leaf]).children := by
    rw [children_edit, if_pos rfl]
    exact List.mem_append_right _ List.mem_cons_self
  exact within_trans _ (edit_mem_within tree inside) (child_within below)

end

mutual

theorem node_within {part : Numbered} : (tree : Numbered) → part ∈ tree.within →
    part.node ∈ tree.node.within
  | .mk own info children, mem => by
    rcases List.mem_cons.1 mem with rfl | mem
    · exact Node.mem_within_self _
    · exact List.mem_cons_of_mem _ (node_withinAll children mem)

theorem node_withinAll {part : Numbered} : (trees : List Numbered) → part ∈ withinAll trees →
    part.node ∈ Node.withinAll (nodes trees)
  | tree :: trees, mem => by
    rcases List.mem_append.1 mem with mem | mem
    · exact List.mem_append_left _ (node_within tree mem)
    · exact List.mem_append_right _ (node_withinAll trees mem)

end

end Numbered

namespace Generator

variable {g h : Generator} {tree : Numbered}

/-! ## trees in slots -/

/-- the slots of the tree are in the generator, with children of greater numbers -/
def Holds (g : Generator) (tree : Numbered) : Prop :=
  ∀ part ∈ tree.within,
    g.slots[part.id]? = some { info := part.info, children := part.children.map Numbered.id } ∧
      ∀ child ∈ part.children, part.id < child.id

namespace Holds

theorem part {inner : Numbered} (holds : g.Holds tree) (mem : inner ∈ tree.within) :
    g.Holds inner :=
  fun other there => holds other (Numbered.within_trans tree mem there)

theorem slot (holds : g.Holds tree) :
    g.slots[tree.id]? = some { info := tree.info, children := tree.children.map Numbered.id } :=
  (holds tree tree.mem_within_self).1

theorem lt_size (holds : g.Holds tree) : tree.id < g.slots.size :=
  (Array.getElem?_eq_some_iff.1 holds.slot).1

theorem info? (holds : g.Holds tree) : g.info? tree.id = some tree.info := by
  unfold Generator.info?
  rw [holds.slot]
  rfl

theorem children (holds : g.Holds tree) : g.children tree.id = tree.children.map Numbered.id := by
  unfold Generator.children
  rw [holds.slot]
  rfl

theorem hasKind (holds : g.Holds tree) (kind : NodeKind) :
    g.hasKind kind tree.id = decide (tree.kind = kind) := by
  unfold Generator.hasKind
  rw [holds.info?]
  rfl

theorem child {inner : Numbered} (holds : g.Holds tree) (mem : inner ∈ tree.children) :
    g.Holds inner ∧ tree.id < inner.id :=
  ⟨holds.part (Numbered.child_within mem), (holds tree tree.mem_within_self).2 inner mem⟩

/-! ## walks -/

theorem treeWithin (holds : g.Holds tree) (depth : Nat) (deep : g.slots.size - tree.id ≤ depth) :
    g.treeWithin depth tree.id = tree.node := by
  induction depth generalizing tree with
  | zero =>
    have := holds.lt_size
    omega
  | succ depth ih =>
    unfold Generator.treeWithin
    rw [holds.info?, holds.children, List.map_map]
    cases tree with
    | mk id info children =>
      show Node.mk info _ = Node.mk info (Numbered.nodes children)
      rw [Numbered.nodes_eq_map]
      congr 1
      refine List.map_congr_left fun child mem => ?_
      obtain ⟨inner, later⟩ := holds.child mem
      have := inner.lt_size
      refine ih inner ?_
      have : id < child.id := later
      have : g.slots.size - id ≤ depth + 1 := deep
      omega

/-- the tree below the root -/
theorem node (holds : g.Holds tree) (root : tree.id = 0) : g.node = tree.node := by
  unfold Generator.node Generator.tree
  rw [← root]
  exact holds.treeWithin _ (Nat.le_refl _)

/-- what is found is in the tree, and of the kind -/
theorem of_mem_nodesWithin (holds : g.Holds tree) {kind : NodeKind} {depth id : Nat}
    (mem : id ∈ g.nodesWithin kind depth tree.id) :
    ∃ part ∈ tree.within, part.id = id ∧ part.kind = kind := by
  induction depth generalizing tree with
  | zero =>
    unfold nodesWithin at mem
    split at mem
    · rename_i here
      rw [holds.hasKind] at here
      refine ⟨tree, tree.mem_within_self, ?_, of_decide_eq_true here⟩
      exact (List.mem_singleton.1 mem).symm
    · cases mem
  | succ depth ih =>
    unfold nodesWithin at mem
    split at mem
    · rename_i here
      rw [holds.hasKind] at here
      refine ⟨tree, tree.mem_within_self, ?_, of_decide_eq_true here⟩
      exact (List.mem_singleton.1 mem).symm
    · rw [holds.children] at mem
      obtain ⟨place, there, found⟩ := List.mem_flatMap.1 mem
      obtain ⟨child, below, rfl⟩ := List.mem_map.1 there
      obtain ⟨part, inside, same⟩ := ih (holds.child below).1 found
      exact ⟨part, Numbered.within_trans tree (Numbered.child_within below) inside, same⟩

/-- a kind that is in the tree is found -/
theorem nodesWithin_ne_nil (holds : g.Holds tree) {kind : NodeKind} {part : Numbered}
    (inside : part ∈ tree.within) (same : part.kind = kind) {depth : Nat}
    (deep : g.slots.size - tree.id ≤ depth) : g.nodesWithin kind depth tree.id ≠ [] := by
  induction depth generalizing tree with
  | zero =>
    have := holds.lt_size
    omega
  | succ depth ih =>
    unfold nodesWithin
    split
    · exact List.cons_ne_nil _ _
    · rename_i elsewhere
      rw [holds.hasKind] at elsewhere
      cases tree with
      | mk id info children =>
        rcases List.mem_cons.1 inside with rfl | inside
        · exact absurd (decide_eq_true same) elsewhere
        · obtain ⟨child, below, inside⟩ := Numbered.mem_withinAll.1 inside
          obtain ⟨inner, later⟩ := holds.child below
          have : id < child.id := later
          have : g.slots.size - id ≤ depth + 1 := deep
          have := inner.lt_size
          have found := ih inner inside (by omega)
          rw [holds.children]
          intro nothing
          rw [List.flatMap_eq_nil_iff] at nothing
          exact found (nothing child.id (List.mem_map_of_mem below))

/-- the only node of its kind is the one that is found -/
theorem nodesOf (holds : g.Holds tree) (root : tree.id = 0) (distinct : tree.Distinct)
    {part : Numbered} (inside : part ∈ tree.within) : g.nodesOf part.kind = [part.id] := by
  have only : ∀ id ∈ g.nodesWithin part.kind g.slots.size 0, id = part.id := by
    intro id mem
    rw [← root] at mem
    obtain ⟨other, there, rfl, same⟩ := holds.of_mem_nodesWithin mem
    rw [distinct.eq there inside same]
  have some_ : g.nodesWithin part.kind g.slots.size 0 ≠ [] := by
    rw [← root]
    exact holds.nodesWithin_ne_nil inside rfl (by omega)
  unfold Generator.nodesOf
  cases found : g.nodesWithin part.kind g.slots.size 0 with
  | nil => exact absurd found some_
  | cons first rest =>
    rw [found] at only
    have rest_nil : rest.filter (fun id => !id == first) = [] := by
      refine List.filter_eq_nil_iff.2 fun id mem => ?_
      rw [only id (List.mem_cons_of_mem _ mem), only first List.mem_cons_self]
      simp
    rw [List.eraseDups_cons, rest_nil, only first List.mem_cons_self]
    rfl

end Holds

end Generator

end Baskets
