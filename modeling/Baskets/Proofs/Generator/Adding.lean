import Baskets.Proofs.Generator.Tree
import Baskets.Proofs.Trace
import Mathlib.Data.List.Find

/-!
# Adding nodes to the tree in a generator

Whatever is added, a generator goes on as it was: the nodes that could be reached can be reached, and
keep their kind (`Generator.Extends`).  `Generator.Shows` says that the generator has come to a part
of a tree that is known as a whole, and `Generator.At` that the active node can be reached and is of
some kind.  From there a node that is next in the whole tree is added in its place, if it was not
present, and is left alone if it was (`Shows.add`).
-/

namespace Baskets

namespace Generator

variable {g h k : Generator}

/-! ## going on -/

/-- every node of the first generator is in the second, with the same kind and the same children
and maybe more -/
def Extends (g h : Generator) : Prop :=
  ∀ (id : Nat) (slot : Slot), g.slots[id]? = some slot →
    ∃ later, h.slots[id]? = some later ∧ later.info.kind = slot.info.kind ∧
      slot.children ⊆ later.children

namespace Extends

theorem refl (g : Generator) : Extends g g := fun _ slot there => ⟨slot, there, rfl, fun _ mem => mem⟩

theorem trans (first : Extends g h) (second : Extends h k) : Extends g k := by
  intro id slot there
  obtain ⟨next, inNext, sameKind, children⟩ := first id slot there
  obtain ⟨last, inLast, sameLast, more⟩ := second id next inNext
  exact ⟨last, inLast, sameLast.trans sameKind, fun _ mem => more (children mem)⟩

theorem hasKind (grown : Extends g h) {kind : NodeKind} {id : Nat} (is : g.hasKind kind id) :
    h.hasKind kind id := by
  unfold Generator.hasKind Generator.info? at is ⊢
  cases there : g.slots[id]? with
  | none =>
    rw [there] at is
    cases is
  | some slot =>
    obtain ⟨later, inLater, sameKind, -⟩ := grown id slot there
    rw [there] at is
    rw [inLater]
    show decide (later.info.kind = kind) = true
    rw [sameKind]
    exact is

theorem children (grown : Extends g h) (id : Nat) : g.children id ⊆ h.children id := by
  unfold Generator.children
  cases there : g.slots[id]? with
  | none => exact fun _ mem => absurd mem List.not_mem_nil
  | some slot =>
    obtain ⟨later, inLater, -, more⟩ := grown id slot there
    rw [inLater]
    exact more

end Extends

theorem getElem?_layOut {info : NodeInfo} (g : Generator) (id : Nat) :
    (g.layOut (.mk info [])).slots[id]? =
      if id = g.slots.size then some { info } else g.slots[id]? := by
  have laid : (g.layOut (.mk info [])).slots = g.slots.push { info } := by
    simp [layOut, Slot.ofNode, Slot.ofNodes, Slot.numbers]
  rw [laid, Array.getElem?_push]

theorem getElem?_attach (g : Generator) (child place id : Nat) :
    (g.attach child place).slots[id]? =
      if place = id then g.slots[id]?.map fun slot =>
        { slot with children := slot.children ++ [child] }
      else g.slots[id]? :=
  Array.getElem?_modify

theorem extends_layOut (g : Generator) (node : Node) : Extends g (g.layOut node) := by
  intro id slot there
  have bound := (Array.getElem?_eq_some_iff.1 there).1
  refine ⟨slot, ?_, rfl, fun _ mem => mem⟩
  show (g.slots ++ _)[id]? = _
  rw [Array.getElem?_append_left bound, there]

theorem extends_attach (g : Generator) (child place : Nat) :
    Extends g (g.attach child place) := by
  intro id slot there
  rw [getElem?_attach]
  by_cases same : place = id
  · rw [if_pos same, there]
    exact ⟨_, rfl, rfl, List.subset_append_left _ _⟩
  · rw [if_neg same]
    exact ⟨slot, there, rfl, fun _ mem => mem⟩

theorem extends_attachAll (child : Nat) (places : List Nat) (g : Generator) :
    Extends g (places.foldl (fun g place => g.attach child place) g) := by
  induction places generalizing g with
  | nil => exact .refl g
  | cons place places ih => exact (extends_attach g child place).trans (ih _)

theorem extends_addUnder (g : Generator) (node : Node) (parent : NodeKind) :
    Extends g (g.addUnder node parent).2 := by
  unfold addUnder
  generalize (if parent = node.kind then [] else g.nodesOf parent) = places
  have grown := (extends_layOut g node).trans (extends_attachAll g.slots.size
    (places.filter fun place => (g.childOf? node.kind place).isNone) (g.layOut node))
  by_cases orphan : places.isEmpty
  · simp only [orphan, if_true]
    exact grown
  · simp only [orphan, if_false, Bool.false_eq_true]
    split
    · exact grown
    · exact grown

theorem extends_add (g : Generator) (node : Node) : Extends g (g.add node).2 :=
  extends_addUnder g node _

theorem extends_modify {f : NodeInfo → NodeInfo} (same : ∀ info, (f info).kind = info.kind)
    (g : Generator) (id : Nat) : Extends g (g.modify id f) := by
  intro other slot there
  unfold modify
  rw [Array.getElem?_modify]
  by_cases here : id = other
  · rw [if_pos here, there]
    exact ⟨_, rfl, same _, fun _ mem => mem⟩
  · rw [if_neg here]
    exact ⟨slot, there, rfl, fun _ mem => mem⟩

/-- goes on from a generator without changing its place -/
structure Keeps (g h : Generator) : Prop where
  place : SamePlace g h
  grown : Extends g h

namespace Keeps

theorem refl (g : Generator) : Keeps g g := ⟨.refl g, .refl g⟩

theorem trans (first : Keeps g h) (second : Keeps h k) : Keeps g k :=
  ⟨first.place.trans second.place, first.grown.trans second.grown⟩

end Keeps

theorem keeps_add (g : Generator) (node : Node) : Keeps g (g.add node).2 :=
  ⟨samePlace_add g node, extends_add g node⟩

/-- a step back changes the place alone -/
theorem pop_ok {left : Generator} (popped : g.pop = .ok left) :
    left.slots = g.slots ∧ left.incomplete = g.incomplete := by
  unfold Generator.pop at popped
  split at popped
  · cases popped
    exact ⟨rfl, rfl⟩
  · cases popped

/-- what was entered and kept is left at the place it was entered from -/
theorem Entered.left (entered : Entered g h) (grown : Extends g h) (same : Keeps h k) :
    Keeps g k.left := by
  obtain ⟨left, popped, place⟩ := entered.pop same.place
  have slots := (pop_ok popped).1
  unfold Generator.left
  rw [popped]
  refine ⟨place, fun id slot there => ?_⟩
  show ∃ later, left.slots[id]? = _ ∧ _
  rw [slots]
  exact (grown.trans same.grown) id slot there

/-! ## where the active node is -/

/-- the nodes that are found from the root -/
inductive Reaches (g : Generator) : Nat → Prop where
  | root : Reaches g 0
  | child {id next : Nat} (here : Reaches g id) (mem : next ∈ g.children id) : Reaches g next

theorem Reaches.mono (grown : Extends g h) {id : Nat} (there : g.Reaches id) : h.Reaches id := by
  induction there with
  | root => exact .root
  | child _ mem ih => exact .child ih (grown.children _ mem)

theorem Holds.reaches {tree : Numbered} (holds : g.Holds tree) (root : tree.id = 0) {id : Nat}
    (there : g.Reaches id) : ∃ part ∈ tree.within, part.id = id := by
  induction there with
  | root => exact ⟨tree, tree.mem_within_self, root⟩
  | child _ mem ih =>
    obtain ⟨part, inside, rfl⟩ := ih
    rw [(holds.part inside).children] at mem
    obtain ⟨child, below, rfl⟩ := List.mem_map.1 mem
    exact ⟨child, Numbered.within_trans tree inside (Numbered.child_within below), rfl⟩

mutual

theorem Holds.reaches_of_mem : (tree : Numbered) → g.Holds tree → g.Reaches tree.id →
    ∀ part ∈ tree.within, g.Reaches part.id
  | .mk id info children, holds, here, part, inside => by
    rcases List.mem_cons.1 inside with rfl | inside
    · exact here
    · exact Holds.reachesAll_of_mem children (fun child mem => ⟨(holds.child mem).1,
        here.child (holds.children ▸ List.mem_map_of_mem mem)⟩) part inside

theorem Holds.reachesAll_of_mem : (trees : List Numbered) →
    (∀ tree ∈ trees, g.Holds tree ∧ g.Reaches tree.id) →
      ∀ part ∈ Numbered.withinAll trees, g.Reaches part.id
  | tree :: trees, each, part, inside => by
    obtain ⟨holds, here⟩ := each tree List.mem_cons_self
    rcases List.mem_append.1 inside with inside | inside
    · exact Holds.reaches_of_mem tree holds here part inside
    · exact Holds.reachesAll_of_mem trees (fun other mem => each other (List.mem_cons_of_mem _ mem))
        part inside

end

/-- the node can be reached and is of that kind -/
structure Found (g : Generator) (kind : NodeKind) (id : Nat) : Prop where
  reached : g.Reaches id
  kind : g.hasKind kind id = true

theorem Found.mono {kind : NodeKind} {id : Nat} (grown : Extends g h) (found : g.Found kind id) :
    h.Found kind id :=
  ⟨found.reached.mono grown, grown.hasKind found.kind⟩

/-- a node that is found is in the tree -/
theorem Holds.exists_part {tree : Numbered} (holds : g.Holds tree) (root : tree.id = 0)
    {kind : NodeKind} {id : Nat} (found : g.Found kind id) :
    ∃ part ∈ tree.within, part.id = id ∧ part.kind = kind := by
  obtain ⟨part, inside, rfl⟩ := holds.reaches root found.reached
  have is := found.kind
  rw [(holds.part inside).hasKind] at is
  exact ⟨part, inside, rfl, of_decide_eq_true is⟩

/-- every node of the tree is found -/
theorem Holds.found {tree part : Numbered} (holds : g.Holds tree) (root : tree.id = 0)
    (inside : part ∈ tree.within) : g.Found part.kind part.id := by
  have start : g.Reaches tree.id := root ▸ .root
  refine ⟨Holds.reaches_of_mem tree holds start part inside, ?_⟩
  rw [(holds.part inside).hasKind]
  exact decide_eq_true rfl

/-- the active node is of that kind -/
def At (g : Generator) (kind : NodeKind) : Prop := g.Found kind g.active

theorem At.keep {kind : NodeKind} (here : g.At kind) (same : Keeps g h) : h.At kind := by
  unfold At
  rw [same.place.active]
  exact Found.mono same.grown here

/-! ## the part of a tree that has come up -/

/-- the generator has come to the part of the tree that is present -/
def Shows (g : Generator) (whole : Node) (present : List NodeKind) : Prop :=
  ∃ tree : Numbered, tree.id = 0 ∧ g.Holds tree ∧ tree.node = whole.restrict present

theorem Shows.node {whole : Node} {present : List NodeKind} (shows : g.Shows whole present) :
    g.node = whole.restrict present := by
  obtain ⟨tree, root, holds, same⟩ := shows
  rw [holds.node root, same]

/-- what is present of a tree with kinds of their own for its nodes has kinds of their own too -/
theorem distinct_of_restrict {tree : Numbered} {whole : Node} {present : List NodeKind}
    (once : whole.kinds.Nodup) (shown : tree.node = whole.restrict present) : tree.Distinct := by
  unfold Numbered.Distinct
  rw [shown]
  exact once.sublist (Node.kinds_restrict_sublist _ _)

/-- the node of a kind that is present has what is present of its children -/
theorem Shows.part {tree part : Numbered} {frames : List Frame} {node : Node}
    {present : List NodeKind} (once : (Node.plug frames node).kinds.Nodup)
    (path : ∀ frame ∈ frames, frame.info.kind ∈ present) (here : node.kind ∈ present)
    (same : tree.node = (Node.plug frames node).restrict present) (inside : part ∈ tree.within)
    (kind : part.kind = node.kind) : part.node = node.restrict present := by
  have onceToo := once.sublist (Node.kinds_restrict_sublist present (Node.plug frames node))
  refine Node.eq_of_kind_eq onceToo ?_ (Node.restrict_mem_within path here) ?_
  · rw [← same]
    exact Numbered.node_within tree inside
  · rw [Numbered.kind_node, kind]
    cases node with
    | mk info children => rfl

/-- nothing changes in a tree where a node is only numbered -/
theorem Holds.layOut {tree : Numbered} (holds : g.Holds tree) (info : NodeInfo) :
    (g.layOut (.mk info [])).Holds tree := by
  intro part inside
  have bound := (holds.part inside).lt_size
  rw [getElem?_layOut, if_neg (Nat.ne_of_lt bound)]
  exact holds part inside

/-- a change of the slot of a node is a change of the tree at its kind -/
theorem Holds.edit {tree part : Numbered} (holds : g.Holds tree) (distinct : tree.Distinct)
    (inside : part ∈ tree.within) (f : NodeInfo → NodeInfo) (extra : List Numbered)
    (slots : ∀ id : Nat, id < g.slots.size → h.slots[id]? =
      if part.id = id then g.slots[id]?.map fun slot =>
        { info := f slot.info, children := slot.children ++ extra.map Numbered.id }
      else g.slots[id]?)
    (new : ∀ leaf ∈ extra, h.Holds leaf ∧ g.slots.size ≤ leaf.id) :
    h.Holds (tree.edit part.kind f extra) := by
  intro other mem
  rcases Numbered.of_mem_within_edit tree mem with put | ⟨old, there, rfl⟩
  · obtain ⟨leaf, there, inner⟩ := Numbered.mem_withinAll.1 put
    exact (new leaf there).1 other inner
  · have bound := (holds.part there).lt_size
    obtain ⟨slot, later⟩ := holds old there
    rw [Numbered.id_edit, Numbered.info_edit, Numbered.children_edit, slots old.id bound, slot]
    have ids : (old.children.map (Numbered.edit part.kind f extra)).map Numbered.id =
        old.children.map Numbered.id := by
      rw [List.map_map]
      exact List.map_congr_left fun child _ => Numbered.id_edit _ _ _ child
    have ascending : ∀ child ∈ old.children.map (Numbered.edit part.kind f extra),
        old.id < child.id := by
      intro edited mem
      obtain ⟨child, below, rfl⟩ := List.mem_map.1 mem
      simpa using later child below
    by_cases here : old.kind = part.kind
    · have same : old = part := distinct.eq there inside here
      rw [if_pos here, if_pos here, if_pos (congrArg Numbered.id same.symm)]
      refine ⟨?_, fun child below => ?_⟩
      · rw [List.map_append, ids]
        rfl
      · rcases List.mem_append.1 below with below | below
        · exact ascending child below
        · exact Nat.lt_of_lt_of_le bound (new child below).2
    · have apart : part.id ≠ old.id := by
        intro same
        have slotPart := (holds.part inside).slot
        rw [same, slot] at slotPart
        exact here (congrArg (fun slot => slot.info.kind) (Option.some.inj slotPart))
      rw [if_neg here, if_neg here, if_neg apart, ids]
      exact ⟨rfl, ascending⟩

/-- a node that is attached in its one place hangs there -/
theorem Holds.attach {tree part : Numbered} (holds : g.Holds tree) (distinct : tree.Distinct)
    (inside : part ∈ tree.within) (leaf : NodeInfo) :
    ((g.layOut (.mk leaf [])).attach g.slots.size part.id).Holds
      (tree.edit part.kind (fun own => own) [.mk g.slots.size leaf []]) := by
  have bound := (holds.part inside).lt_size
  refine holds.edit distinct inside _ _ (fun id small => ?_) fun only mem => ?_
  · rw [getElem?_attach, getElem?_layOut, if_neg (Nat.ne_of_lt small)]
    rfl
  · rw [List.mem_singleton.1 mem]
    refine ⟨fun part' inner => ?_, Nat.le_refl _⟩
    rw [List.mem_singleton.1 inner]
    have apart : part.id ≠ g.slots.size := Nat.ne_of_lt bound
    show ((g.layOut (.mk leaf [])).attach g.slots.size part.id).slots[g.slots.size]? = _ ∧ _
    rw [getElem?_attach, if_neg apart, getElem?_layOut, if_pos rfl]
    exact ⟨rfl, fun _ nothing => absurd nothing List.not_mem_nil⟩

/-- a node that is modified changes in its place -/
theorem Holds.modify {tree part : Numbered} (holds : g.Holds tree) (distinct : tree.Distinct)
    (inside : part ∈ tree.within) (f : NodeInfo → NodeInfo) :
    (g.modify part.id f).Holds (tree.edit part.kind f []) := by
  refine holds.edit distinct inside _ _ (fun id _ => ?_) fun _ mem => absurd mem List.not_mem_nil
  unfold Generator.modify
  rw [Array.getElem?_modify]
  cases g.slots[id]? with
  | none => rfl
  | some slot => simp

theorem Holds.childOf? {tree : Numbered} (holds : g.Holds tree) (kind : NodeKind) :
    g.childOf? kind tree.id =
      (tree.children.find? fun child => child.kind = kind).map Numbered.id := by
  unfold Generator.childOf?
  rw [holds.children, List.find?_map]
  congr 1
  refine List.find?_congr fun child below => ?_
  exact (holds.child below).1.hasKind kind

/-- a place that has a child of the kind keeps it -/
theorem addUnder_of_nodesOf (g : Generator) (leaf : NodeInfo) {parent : NodeKind} {place : Nat}
    (differs : parent ≠ leaf.kind) (only : g.nodesOf parent = [place]) :
    g.addUnder (.mk leaf []) parent = match g.childOf? leaf.kind place with
      | some child => (child, g.layOut (.mk leaf []))
      | none => (g.slots.size, (g.layOut (.mk leaf [])).attach g.slots.size place) := by
  have kind : (Node.mk leaf []).kind = leaf.kind := rfl
  unfold addUnder
  rw [kind, if_neg differs, only]
  cases there : g.childOf? leaf.kind place with
  | none => simp [there]
  | some child => simp [there]

/-- what it comes to that a node is added below a node of another kind -/
theorem Holds.add {tree part : Numbered} (holds : g.Holds tree) (root : tree.id = 0)
    (distinct : tree.Distinct) (inside : part ∈ tree.within) (active : part.id = g.active)
    (leaf : NodeInfo) (differs : part.kind ≠ leaf.kind) :
    g.add (.mk leaf []) = match part.children.find? fun child => child.kind = leaf.kind with
      | some child => (child.id, g.layOut (.mk leaf []))
      | none => (g.slots.size, (g.layOut (.mk leaf [])).attach g.slots.size part.id) := by
  unfold Generator.add
  rw [← active, (holds.part inside).info?]
  show g.addUnder _ part.kind = _
  rw [addUnder_of_nodesOf g leaf differs (holds.nodesOf root distinct inside),
    (holds.part inside).childOf? leaf.kind]
  cases part.children.find? fun child => child.kind = leaf.kind with
  | none => rfl
  | some child => rfl

/-- the children of a node that is shown are those that are present -/
theorem Shows.children {part : Numbered} {info : NodeInfo} {children : List Node}
    {present : List NodeKind} (shown : part.node = (Node.mk info children).restrict present) :
    Numbered.nodes part.children = Node.restrictAll present children := by
  cases part with
  | mk id info children => exact congrArg Node.children shown

/-- a child has come up just when its kind is present -/
theorem exists_child_iff {part : Numbered} {children : List Node} {own : Node}
    {present : List NodeKind}
    (shown : Numbered.nodes part.children = Node.restrictAll present children)
    (mem : own ∈ children) :
    (∃ child ∈ part.children, child.kind = own.kind) ↔ own.kind ∈ present := by
  rw [Numbered.nodes_eq_map] at shown
  constructor
  · rintro ⟨child, below, same⟩
    rw [← same, ← Numbered.kind_node]
    refine Node.kind_mem_of_mem_restrictAll children ?_
    rw [← shown]
    exact List.mem_map_of_mem below
  · intro there
    have restricted := Node.restrict_mem_restrictAll mem there
    rw [← shown] at restricted
    obtain ⟨child, below, same⟩ := List.mem_map.1 restricted
    refine ⟨child, below, ?_⟩
    rw [← Numbered.kind_node, same]
    cases own
    rfl

/-- **Adding.**  The next node of the whole tree, below the active one, is present afterwards; one
that was present stays as it was. -/
theorem Shows.add {frames : List Frame} {info own leaf : NodeInfo} {before after below : List Node}
    {present : List NodeKind}
    (shows : g.Shows (Node.plug frames (.mk info (before ++ .mk own below :: after))) present)
    (once : (Node.plug frames (.mk info (before ++ .mk own below :: after))).kinds.Nodup)
    (path : ∀ frame ∈ frames, frame.info.kind ∈ present) (here : info.kind ∈ present)
    (active : g.At info.kind) (same : leaf.kind = own.kind)
    (next : own.kind ∈ present ∨ leaf = own ∧
      (∀ kind ∈ (Node.mk own below).kinds, kind ∉ present) ∧
      ∀ kind ∈ Node.kindsAll after, kind ∉ present) :
    (g.add (.mk leaf [])).2.Shows
        (Node.plug frames (.mk info (before ++ .mk own below :: after))) (own.kind :: present) ∧
      (g.add (.mk leaf [])).2.Found own.kind (g.add (.mk leaf [])).1 := by
  obtain ⟨tree, root, holds, shown⟩ := shows
  have distinct := distinct_of_restrict once shown
  obtain ⟨part, inside, at_, kind⟩ := holds.exists_part root active
  have partNode := Shows.part once path here shown inside kind
  have differs : part.kind ≠ leaf.kind := by
    have inner := Node.nodup_of_plug once
    rw [kind, same]
    intro twice
    refine (List.nodup_cons.1 inner).1 (twice ▸ ?_)
    rw [Node.kindsAll_append]
    exact List.mem_append_right _ List.mem_cons_self
  have own_iff := exists_child_iff (Shows.children partNode)
    (List.mem_append_right before List.mem_cons_self)
  rw [holds.add root distinct inside at_ leaf differs]
  cases found : part.children.find? fun child => child.kind = leaf.kind with
  | some child =>
    have below := List.mem_of_find?_eq_some found
    have is : child.kind = own.kind := by
      have named := List.find?_some found
      rw [← same]
      exact of_decide_eq_true named
    have there : own.kind ∈ present := own_iff.1 ⟨child, below, is⟩
    have laid := holds.layOut leaf
    refine ⟨⟨tree, root, laid, shown.trans (Node.restrict_congr _ fun kind _ => ?_)⟩, ?_⟩
    · exact ⟨List.mem_cons_of_mem _, fun mem => (List.mem_cons.1 mem).elim (· ▸ there) id⟩
    · exact is ▸ laid.found root (Numbered.within_trans tree inside (Numbered.child_within below))
  | none =>
    have absent : own.kind ∉ present := by
      intro there
      obtain ⟨child, below, is⟩ := own_iff.2 there
      exact List.find?_eq_none.1 found child below (decide_eq_true (is.trans same.symm))
    obtain ⟨rfl, fresh, later⟩ := next.resolve_left absent
    have attached := holds.attach distinct inside leaf
    have edited := Numbered.id_edit part.kind (fun own => own) [.mk g.slots.size leaf []] tree
    refine ⟨⟨_, edited.trans root, attached, ?_⟩, ?_⟩
    · rw [Numbered.node_edit, shown, kind]
      exact Node.hang_restrict once path here fresh later
    · exact attached.found (edited.trans root) (Numbered.leaf_mem_within_edit inside)

/-! ## changing a node -/

/-- what changes in a node that is present changes in its place -/
theorem Shows.modify {frames : List Frame} {info : NodeInfo} {children : List Node}
    {present : List NodeKind} {f : NodeInfo → NodeInfo} {id : Nat}
    (shows : g.Shows (Node.plug frames (.mk info children)) present)
    (once : (Node.plug frames (.mk info children)).kinds.Nodup)
    (path : ∀ frame ∈ frames, frame.info.kind ∈ present) (here : info.kind ∈ present)
    (found : g.Found info.kind id) (same : (f info).kind = info.kind) :
    (g.modify id f).Shows (Node.plug frames (.mk (f info) children)) present := by
  obtain ⟨tree, root, holds, shown⟩ := shows
  have distinct := distinct_of_restrict once shown
  obtain ⟨part, inside, rfl, kind⟩ := holds.exists_part root found
  refine ⟨_, (Numbered.id_edit _ _ _ tree).trans root, holds.modify distinct inside f, ?_⟩
  rw [Numbered.node_edit, shown, kind]
  exact Node.revise_restrict same once path here

end Generator

end Baskets
