import Baskets.Proofs.Trace.Contribution

/-!
# Where a generator stands in a tree

`Generator.Stands` puts together what is known of a generator that grows a known tree: the part that
is present, the place of the active node, and the children that this node has in the whole tree.
Stepping into a child makes it present, and stepping back out comes to the same place.
-/

namespace Baskets

namespace Generator

/-- the active node is in its place of a whole tree whose nodes have kinds of their own -/
structure Stands (g : Generator) (frames : List Frame) (info : NodeInfo) (children : List Node)
    (present : List NodeKind) : Prop where
  shows : g.Shows (Node.plug frames (.mk info children)) present
  once : (Node.plug frames (.mk info children)).kinds.Nodup
  path : ∀ frame ∈ frames, frame.info.kind ∈ present
  here : info.kind ∈ present
  active : g.At info.kind

variable {g h k : Generator} {whole : Node} {frames : List Frame} {info own leaf : NodeInfo}
  {before after below children : List Node} {present later : List NodeKind}

theorem Shows.of_slots_eq (shows : g.Shows whole present) (same : h.slots = g.slots) :
    h.Shows whole present := by
  obtain ⟨tree, root, holds, shown⟩ := shows
  refine ⟨tree, root, fun part inside => ?_, shown⟩
  rw [same]
  exact holds part inside

namespace Stands

/-! ## into a child and back -/

@[simp] theorem plug_frame (frames : List Frame) (info : NodeInfo) (before after : List Node)
    (child : Node) : Node.plug (frames ++ [⟨info, before, after⟩]) child =
      Node.plug frames (.mk info (before ++ child :: after)) :=
  Node.plug_append frames _ child

theorem path_frame (path : ∀ frame ∈ frames, frame.info.kind ∈ present)
    (here : info.kind ∈ present) (before after : List Node) :
    ∀ frame ∈ frames ++ [⟨info, before, after⟩], frame.info.kind ∈ present := by
  intro frame mem
  rcases List.mem_append.1 mem with mem | mem
  · exact path frame mem
  · rw [List.mem_singleton.1 mem]
    exact here

/-- a child is next if it is present, or if it is as in the whole tree and nothing comes before it
that is still to come -/
def Next (leaf own : NodeInfo) (below after : List Node) (present : List NodeKind) : Prop :=
  own.kind ∈ present ∨ leaf = own ∧ (∀ kind ∈ (Node.mk own below).kinds, kind ∉ present) ∧
    ∀ kind ∈ Node.kindsAll after, kind ∉ present

theorem add (stands : g.Stands frames info (before ++ .mk own below :: after) present)
    (same : leaf.kind = own.kind) (next : Next leaf own below after present) :
    (g.add (.mk leaf [])).2.Stands frames info (before ++ .mk own below :: after)
        (own.kind :: present) ∧
      (g.add (.mk leaf [])).2.Found own.kind (g.add (.mk leaf [])).1 := by
  obtain ⟨shows, found⟩ :=
    stands.shows.add stands.once stands.path stands.here stands.active same next
  refine ⟨⟨shows, stands.once, fun frame mem => List.mem_cons_of_mem _ (stands.path frame mem),
    List.mem_cons_of_mem _ stands.here, stands.active.keep (keeps_add g _)⟩, found⟩

/-- the child that was added is active -/
theorem into (stands : g.Stands frames info (before ++ .mk own below :: after) present)
    (there : own.kind ∈ present) (found : g.Found own.kind h.active) (same : h.slots = g.slots) :
    h.Stands (frames ++ [⟨info, before, after⟩]) own below present := by
  refine ⟨?_, ?_, path_frame stands.path stands.here before after, there,
    found.mono (extends_of_slots_eq same)⟩
  · rw [plug_frame]
    exact stands.shows.of_slots_eq same
  · rw [plug_frame]
    exact stands.once

theorem enter (stands : g.Stands frames info (before ++ .mk own below :: after) present)
    (same : leaf.kind = own.kind) (next : Next leaf own below after present) :
    (g.enter leaf).Stands (frames ++ [⟨info, before, after⟩]) own below (own.kind :: present) := by
  obtain ⟨added, found⟩ := stands.add same next
  exact added.into List.mem_cons_self found rfl

theorem descend (stands : g.Stands frames info (before ++ .mk own below :: after) present)
    (same : leaf.kind = own.kind) (next : Next leaf own below after present) :
    (g.descend leaf).Stands (frames ++ [⟨info, before, after⟩]) own below
      (own.kind :: present) := by
  obtain ⟨added, found⟩ := stands.add same next
  exact added.into List.mem_cons_self found rfl

/-- still at its place, with more of the tree present -/
theorem keep (stands : g.Stands frames info children present) (kept : Keeps g k)
    (shows : k.Shows (Node.plug frames (.mk info children)) later) (sub : present ⊆ later) :
    k.Stands frames info children later :=
  ⟨shows, stands.once, fun frame mem => sub (stands.path frame mem), sub stands.here,
    stands.active.keep kept⟩

/-! ## the children of the active node -/

/-- the active node has the children that are present -/
theorem children_eq (stands : g.Stands frames info children present) :
    ∃ numbered : List Numbered, g.children g.active = numbered.map Numbered.id ∧
      Numbered.nodes numbered = Node.restrictAll present children ∧
      ∀ child ∈ numbered, g.Found child.kind child.id := by
  obtain ⟨tree, root, holds, shown⟩ := stands.shows
  obtain ⟨part, inside, at_, kind⟩ := holds.exists_part root stands.active
  have partNode := Shows.part stands.once stands.path stands.here shown inside kind
  rw [← at_]
  refine ⟨part.children, (holds.part inside).children, Shows.children partNode, fun child mem => ?_⟩
  exact holds.found root (Numbered.within_trans tree inside (Numbered.child_within mem))

theorem length_children (stands : g.Stands frames info children present) :
    (g.children g.active).length = (Node.restrictAll present children).length := by
  obtain ⟨numbered, same, nodes, -⟩ := stands.children_eq
  rw [same, ← nodes, Numbered.nodes_eq_map, List.length_map, List.length_map]

/-- children that are absent may as well be others -/
theorem congr {others : List Node} (stands : g.Stands frames info children present)
    (kinds : Node.kindsAll others = Node.kindsAll children)
    (same : Node.restrictAll present others = Node.restrictAll present children) :
    g.Stands frames info others present := by
  refine ⟨?_, ?_, stands.path, stands.here, stands.active⟩
  · obtain ⟨tree, root, holds, shown⟩ := stands.shows
    refine ⟨tree, root, holds, ?_⟩
    rw [shown]
    refine Node.restrict_plug_congr frames ?_ rfl
    exact congrArg (Node.mk info) same.symm
  · have all : (Node.mk info others).kinds = (Node.mk info children).kinds :=
      congrArg (info.kind :: ·) kinds
    rw [Node.kinds_plug_congr frames all]
    exact stands.once

/-- puts a loop around the child that came last, after `slot` others -/
theorem loopChild {slot : Nat} {start : Instruction}
    (stands : g.Stands frames info (before ++ .mk own below :: after) present)
    (there : own.kind ∈ present) (none : ∀ kind ∈ Node.kindsAll after, kind ∉ present)
    (place : (Node.restrictAll present before).length = slot) :
    (Contribution.loopChild g.active slot start g).Stands frames info
      (before ++ .mk (Contribution.looped start own) below :: after) present := by
  obtain ⟨numbered, same, nodes, found⟩ := stands.children_eq
  have restricted : Node.restrictAll present (before ++ .mk own below :: after) =
      Node.restrictAll present before ++ [(Node.mk own below).restrict present] := by
    have root : (Node.mk own below).kind ∈ present := there
    simp [root, Node.restrictAll_eq_nil none]
  rw [restricted, Numbered.nodes_eq_map] at nodes
  obtain ⟨front, back, rfl, first, last⟩ := List.map_eq_append_iff.1 nodes
  obtain ⟨child, rfl, childNode⟩ := List.map_eq_singleton_iff.1 last
  have frontLength : front.length = slot := by
    rw [← place, ← first, List.length_map]
  have childKind : child.kind = own.kind := by
    rw [← Numbered.kind_node, childNode]
    rfl
  have childFound := found child (List.mem_append_right _ List.mem_cons_self)
  rw [childKind] at childFound
  have kept := keeps_loopChild g.active slot start g
  have loops : Contribution.loopChild g.active slot start g =
      g.modify child.id (Contribution.looped start) := by
    unfold Contribution.loopChild
    rw [same, List.map_append, List.drop_append_of_le_length (by simp [frontLength]),
      List.drop_of_length_le (by simp [frontLength])]
    rfl
  have shows := stands.shows
  have once := stands.once
  rw [← plug_frame] at shows once
  refine ⟨?_, ?_, stands.path, stands.here, stands.active.keep kept⟩
  · rw [loops, ← plug_frame]
    exact shows.modify once (path_frame stands.path stands.here before after) there childFound rfl
  · have kinds : (Node.mk (Contribution.looped start own) below).kinds =
        (Node.mk own below).kinds := rfl
    rw [← plug_frame, Node.kinds_plug_congr _ kinds]
    exact once

end Stands

end Generator

end Baskets
