import Baskets.Proofs.Generator.Ascending
import Baskets.Proofs.Node.Lineage
import Baskets.Proofs.Trace.Contribution

/-!
# Generators that grow along a lineage

Where a lineage says what hangs below what, a node is added below the one host it can have, or is
there already.  So the tree in the generator stays within the lineage whatever is added and in
whatever order (`Generator.Obeys`), and there is nothing left to add as soon as every kind of the
lineage has come up: the slots stay as they are, and new ones hang nowhere (`Generator.Develops`).
-/

namespace Baskets

/-! ## kinds after a change -/

namespace Node

section
variable {place : NodeKind} {f : NodeInfo → NodeInfo}

mutual

/-- a change puts in the kinds of the extra nodes, once for each node of the place -/
theorem count_kinds_edit (same : ∀ info, (f info).kind = info.kind) (extra : List Node)
    (kind : NodeKind) : (node : Node) → (node.edit place f extra).kinds.count kind =
      node.kinds.count kind + node.kinds.count place * (kindsAll extra).count kind
  | .mk info children => by
    have below := count_kindsAll_editAll same extra kind children
    unfold edit
    by_cases here : info.kind = place
    · rw [if_pos here, kinds, kinds, kindsAll_append, same, here, List.count_cons, List.count_cons,
        List.count_cons_self, List.count_append, below, Nat.add_mul]
      omega
    · rw [if_neg here, kinds, kinds, List.count_cons, List.count_cons, List.count_cons_of_ne here,
        below]
      omega

theorem count_kindsAll_editAll (same : ∀ info, (f info).kind = info.kind) (extra : List Node)
    (kind : NodeKind) : (nodes : List Node) → (kindsAll (editAll place f extra nodes)).count kind =
      (kindsAll nodes).count kind + (kindsAll nodes).count place * (kindsAll extra).count kind
  | [] => by simp [editAll, kindsAll]
  | node :: nodes => by
    rw [editAll, kindsAll, kindsAll, List.count_append, List.count_append, List.count_append,
      count_kinds_edit same extra kind node, count_kindsAll_editAll same extra kind nodes,
      Nat.add_mul]
    omega

end

end

end Node

namespace Numbered

variable {lineage : Lineage} {tree : Numbered} {place : NodeKind} {f : NodeInfo → NodeInfo}
  {extra : List Numbered}

theorem kind_edit (same : ∀ info, (f info).kind = info.kind) (tree : Numbered) :
    (tree.edit place f extra).kind = tree.kind := by
  unfold kind
  rw [info_edit]
  split
  · exact same _
  · rfl

/-- nodes of new kinds keep the kinds apart -/
theorem Distinct.edit (distinct : tree.Distinct) (same : ∀ info, (f info).kind = info.kind)
    (once : (Node.kindsAll (nodes extra)).Nodup)
    (new : ∀ kind ∈ Node.kindsAll (nodes extra), kind ∉ tree.node.kinds) :
    (tree.edit place f extra).Distinct := by
  unfold Distinct at distinct ⊢
  rw [List.nodup_iff_count_le_one] at distinct ⊢
  intro kind
  rw [node_edit, Node.count_kinds_edit same]
  by_cases there : kind ∈ Node.kindsAll (nodes extra)
  · rw [List.count_eq_zero_of_not_mem (new kind there),
      List.count_eq_one_of_mem once there, Nat.mul_one, Nat.zero_add]
    exact distinct place
  · rw [List.count_eq_zero_of_not_mem there, Nat.mul_zero, Nat.add_zero]
    exact distinct kind

/-- in the tree every child hangs where the lineage has it -/
def Along (lineage : Lineage) (tree : Numbered) : Prop :=
  ∀ part ∈ tree.within, ∀ child ∈ part.children, (part.kind, child.kind) ∈ lineage.links

theorem Along.edit (along : tree.Along lineage) (same : ∀ info, (f info).kind = info.kind)
    (put : ∀ leaf ∈ extra, leaf.Along lineage ∧ (place, leaf.kind) ∈ lineage.links) :
    (tree.edit place f extra).Along lineage := by
  intro part mem child below
  rcases of_mem_within_edit tree mem with mem | ⟨old, there, rfl⟩
  · obtain ⟨leaf, inExtra, inside⟩ := mem_withinAll.1 mem
    exact (put leaf inExtra).1 part inside child below
  · have before : ∀ child ∈ old.children.map (Numbered.edit place f extra),
        (old.kind, child.kind) ∈ lineage.links := by
      intro edited mem
      obtain ⟨child, own, rfl⟩ := List.mem_map.1 mem
      rw [kind_edit same]
      exact along old there child own
    rw [children_edit] at below
    rw [kind_edit same]
    split at below
    · rename_i here
      rcases List.mem_append.1 below with below | below
      · exact before child below
      · rw [here]
        exact (put child below).2
    · exact before child below

end Numbered

namespace Generator

variable {lineage : Lineage} {g h k : Generator} {tree part : Numbered} {host kind other : NodeKind}
  {id : Nat}

/-! ## what is found -/

/-- a node of the kind can be reached -/
def Has (g : Generator) (kind : NodeKind) : Prop := ∃ id, g.Found kind id

theorem Has.mono (has : g.Has kind) (grown : Extends g h) : h.Has kind := by
  obtain ⟨id, found⟩ := has
  exact ⟨id, found.mono grown⟩

/-- everything in the lineage has come up -/
def Full (g : Generator) (lineage : Lineage) : Prop := ∀ link ∈ lineage.links, g.Has link.2

theorem Full.mono (full : g.Full lineage) (grown : Extends g h) : h.Full lineage :=
  fun link mem => (full link mem).mono grown

/-! ## trees along the lineage -/

/-- the tree in the generator, with kinds of their own for its nodes, along the lineage -/
structure Bears (g : Generator) (lineage : Lineage) (tree : Numbered) : Prop where
  root : tree.id = 0
  top : tree.kind = .top
  holds : g.Holds tree
  distinct : tree.Distinct
  along : tree.Along lineage

/-- what is in the generator is along the lineage -/
def Obeys (g : Generator) (lineage : Lineage) : Prop := ∃ tree, g.Bears lineage tree

namespace Bears

/-- a node that is found is in the tree -/
theorem exists_part (bears : g.Bears lineage tree) (found : g.Found kind id) :
    ∃ part ∈ tree.within, part.id = id ∧ part.kind = kind := bears.holds.exists_part bears.root found

theorem found (bears : g.Bears lineage tree) (inside : part ∈ tree.within) :
    g.Found part.kind part.id := bears.holds.found bears.root inside

/-- what is found hangs below its host -/
theorem mem_children (bears : g.Bears lineage tree) (link : (host, kind) ∈ lineage.links)
    {place : Nat} (above : g.Found host place) (found : g.Found kind id) :
    id ∈ g.children place := by
  obtain ⟨hosting, inHost, rfl, hostKind⟩ := bears.exists_part above
  cases found.reached with
  | root =>
    have is := found.kind
    rw [← bears.root, bears.holds.hasKind, bears.top] at is
    exact absurd (of_decide_eq_true is).symm (Lineage.ne_top link)
  | child reached below =>
    obtain ⟨outer, inOuter, rfl⟩ := bears.holds.reaches bears.root reached
    have listed := below
    rw [(bears.holds.part inOuter).children] at listed
    obtain ⟨child, own, rfl⟩ := List.mem_map.1 listed
    have is := found.kind
    rw [((bears.holds.part inOuter).child own).1.hasKind] at is
    have hangs := bears.along outer inOuter child own
    rw [of_decide_eq_true is] at hangs
    have same := (Lineage.host_eq hangs link).trans hostKind.symm
    rw [← bears.distinct.eq inOuter inHost same]
    exact below

/-- a node with no child of the kind has none anywhere -/
theorem not_has (bears : g.Bears lineage tree) (link : (host, kind) ∈ lineage.links)
    (inside : part ∈ tree.within) (hosts : part.kind = host)
    (none : (part.children.find? fun child => child.kind = kind) = .none) : ¬ g.Has kind := by
  rintro ⟨id, found⟩
  have below := bears.mem_children link (hosts ▸ bears.found inside) found
  rw [(bears.holds.part inside).children] at below
  obtain ⟨child, own, rfl⟩ := List.mem_map.1 below
  have is := found.kind
  rw [((bears.holds.part inside).child own).1.hasKind] at is
  exact List.find?_eq_none.1 none child own is

/-- a leaf of a new kind can be hung below its host -/
theorem hang (bears : g.Bears lineage tree) (inside : part ∈ tree.within) {leaf : NodeInfo}
    (link : (part.kind, leaf.kind) ∈ lineage.links) (absent : ¬ g.Has leaf.kind) :
    ((g.layOut (.mk leaf [])).attach g.slots.size part.id).Bears lineage
      (tree.edit part.kind (fun own => own) [.mk g.slots.size leaf []]) := by
  refine ⟨(Numbered.id_edit _ _ _ tree).trans bears.root,
    (Numbered.kind_edit (fun _ => rfl) tree).trans bears.top,
    bears.holds.attach bears.distinct inside leaf,
    bears.distinct.edit (fun _ => rfl) (List.nodup_singleton leaf.kind) ?_,
    bears.along.edit (fun _ => rfl) ?_⟩
  · intro kind mem there
    rw [List.mem_singleton.1 mem, Numbered.kinds_node] at there
    obtain ⟨twin, inTree, same⟩ := List.mem_map.1 there
    exact absent ⟨twin.id, same ▸ bears.found inTree⟩
  · intro own mem
    rw [List.mem_singleton.1 mem]
    refine ⟨fun part inner => ?_, link⟩
    rw [List.mem_singleton.1 inner]
    exact fun _ nothing => absurd nothing List.not_mem_nil

end Bears

/-! ## developing -/

/-- all slots are as they were -/
def Still (g h : Generator) : Prop :=
  ∀ (id : Nat) (slot : Slot), g.slots[id]? = some slot → h.slots[id]? = some slot

theorem Still.of_slots_eq (same : h.slots = g.slots) : Still g h := fun _ _ there => same ▸ there

theorem Still.node_eq (still : Still g h) (obeys : g.Obeys lineage) : h.node = g.node := by
  obtain ⟨tree, bears⟩ := obeys
  have holds : h.Holds tree := fun part inside =>
    ⟨still _ _ (bears.holds part inside).1, (bears.holds part inside).2⟩
  rw [bears.holds.node bears.root, holds.node bears.root]

theorem still_layOut (g : Generator) (node : Node) : Still g (g.layOut node) := by
  intro id slot there
  rw [getElem?_layOut_of_lt node (Array.getElem?_eq_some_iff.1 there).1, there]

/-- more has come up along the lineage, or everything was there and nothing has changed -/
structure Develops (lineage : Lineage) (g h : Generator) : Prop where
  obeys : h.Obeys lineage
  grown : Extends g h
  still : g.Full lineage → Still g h

namespace Develops

theorem trans (first : Develops lineage g h) (second : Develops lineage h k) :
    Develops lineage g k where
  obeys := second.obeys
  grown := first.grown.trans second.grown
  still := fun full id slot there =>
    second.still (full.mono first.grown) id slot (first.still full id slot there)

theorem of_slots_eq (obeys : g.Obeys lineage) (same : h.slots = g.slots) :
    Develops lineage g h where
  obeys := by
    obtain ⟨tree, bears⟩ := obeys
    refine ⟨tree, { bears with holds := fun part inside => ?_ }⟩
    rw [same]
    exact bears.holds part inside
  grown := extends_of_slots_eq same
  still := fun _ => .of_slots_eq same

theorem refl (obeys : g.Obeys lineage) : Develops lineage g g := .of_slots_eq obeys rfl

end Develops

/-! ## operations -/

theorem obeys_new (lineage : Lineage) : Obeys {} lineage := by
  refine ⟨.mk 0 { kind := .top } [], rfl, rfl, fun part inside => ?_, ?_, fun part inside => ?_⟩
  · rw [List.mem_singleton.1 inside]
    exact ⟨rfl, fun _ mem => absurd mem List.not_mem_nil⟩
  · exact List.nodup_singleton NodeKind.top
  · rw [List.mem_singleton.1 inside]
    exact fun _ mem => absurd mem List.not_mem_nil

namespace Obeys

/-- an entry begins at the root -/
theorem beginEntry (obeys : g.Obeys lineage) :
    Develops lineage g g.beginEntry ∧ g.beginEntry.At .top := by
  have begun : Develops lineage g g.beginEntry := .of_slots_eq obeys rfl
  obtain ⟨tree, bears⟩ := begun.obeys
  have found := bears.found tree.mem_within_self
  rw [bears.root, bears.top] at found
  exact ⟨begun, found⟩

/-- **Adding along the lineage.**  A node that belongs below the active one is there afterwards; if
there was one of its kind, nothing has changed. -/
theorem add (obeys : g.Obeys lineage) (active : g.At host) {leaf : NodeInfo}
    (link : (host, leaf.kind) ∈ lineage.links) :
    Develops lineage g (g.add (.mk leaf [])).2 ∧
      (g.add (.mk leaf [])).2.Found leaf.kind (g.add (.mk leaf [])).1 := by
  obtain ⟨tree, bears⟩ := obeys
  obtain ⟨part, inside, at_, rfl⟩ := bears.exists_part active
  have differs : part.kind ≠ leaf.kind := lineage.differs _ link
  rw [bears.holds.add bears.root bears.distinct inside at_ leaf differs]
  cases found : part.children.find? fun child => child.kind = leaf.kind with
  | some child =>
    have laid : (g.layOut (.mk leaf [])).Bears lineage tree :=
      { bears with holds := bears.holds.layOut leaf }
    have below := Numbered.within_trans tree inside
      (Numbered.child_within (List.mem_of_find?_eq_some found))
    have named := List.find?_some found
    have is : child.kind = leaf.kind := of_decide_eq_true named
    exact ⟨⟨⟨tree, laid⟩, extends_layOut g _, fun _ => still_layOut g _⟩, is ▸ laid.found below⟩
  | none =>
    have absent := bears.not_has link inside rfl found
    have hung := bears.hang inside link absent
    have new := hung.found (Numbered.leaf_mem_within_edit inside)
    have extended := (extends_layOut g (.mk leaf [])).trans
      (extends_attach (g.layOut (.mk leaf [])) g.slots.size part.id)
    exact ⟨⟨⟨_, hung⟩, extended, fun full => absurd (full _ link) absent⟩, new⟩

/-- a host of two kinds has two children when everything has come up -/
theorem two_le_children (obeys : g.Obeys lineage) (full : g.Full lineage) (active : g.At host)
    (first : (host, kind) ∈ lineage.links) (second : (host, other) ∈ lineage.links)
    (differ : kind ≠ other) : 2 ≤ (g.children g.active).length := by
  obtain ⟨tree, bears⟩ := obeys
  obtain ⟨one, oneFound⟩ := full _ first
  obtain ⟨two, twoFound⟩ := full _ second
  have here := bears.mem_children first active oneFound
  have there := bears.mem_children second active twoFound
  have apart : one ≠ two := by
    intro same
    refine differ ((kindAt_of_hasKind oneFound.kind).symm.trans ?_)
    rw [same]
    exact kindAt_of_hasKind twoFound.kind
  match children : g.children g.active with
  | [] =>
    rw [children] at here
    cases here
  | [only] =>
    rw [children] at here there
    exact absurd ((List.mem_singleton.1 here).trans (List.mem_singleton.1 there).symm) apart
  | _ :: _ :: rest => exact Nat.le_add_left 2 rest.length

/-- a loop around a node leaves it where it is -/
theorem loopChild (obeys : g.Obeys lineage) (above : g.Reaches id) (slot : Nat)
    (start : Instruction) : (Contribution.loopChild id slot start g).Obeys lineage := by
  unfold Contribution.loopChild
  split
  · rename_i child last
    obtain ⟨tree, bears⟩ := obeys
    have below : child ∈ g.children id := List.mem_of_mem_drop (last ▸ List.mem_cons_self)
    obtain ⟨part, inside, rfl⟩ := bears.holds.reaches bears.root (above.child below)
    refine ⟨_, (Numbered.id_edit _ _ _ tree).trans bears.root,
      (Numbered.kind_edit (f := Contribution.looped start) (fun _ => rfl) tree).trans bears.top,
      bears.holds.modify bears.distinct inside (Contribution.looped start),
      bears.distinct.edit (fun _ => rfl) List.nodup_nil fun _ mem => absurd mem List.not_mem_nil,
      bears.along.edit (fun _ => rfl) fun _ mem => absurd mem List.not_mem_nil⟩
  · exact obeys

end Obeys

end Generator

end Baskets
