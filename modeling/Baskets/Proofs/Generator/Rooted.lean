import Baskets.Proofs.Generator.Ascending
import Baskets.Proofs.Trace.Contribution

/-!
# Nothing added is lost

A node finds a place if the active node can be found from the root and is of another kind than the
node.  `Generator.Rooted` says that so far every node found one, and that the active node and all
saved nodes can be found from the root.  Adding keeps this as long as the kinds differ, and the node
that was added can be found as well (`Rooted.add`); so it can be made active.
-/

namespace Baskets

namespace Generator

variable {g h : Generator} {kind : NodeKind} {id : Nat} {node : Node}

/-! ## what is found from the root -/

theorem Reaches.lt_size (there : g.Reaches id) (ascending : g.Ascending)
    (root : g.hasKind .top 0 = true) : id < g.slots.size := by
  cases there with
  | root => exact lt_size_of_hasKind root
  | child _ mem => exact (ascending _ _ mem).2

theorem reaches_iff : g.Reaches id ↔
    Relation.ReflTransGen (fun id child => child ∈ g.children id) 0 id := by
  constructor
  · intro there
    induction there with
    | root => exact .refl
    | child _ mem ih => exact ih.tail mem
  · intro way
    induction way with
    | refl => exact .root
    | tail _ mem ih => exact ih.child mem

theorem reaches_of_mem_nodesOf (mem : id ∈ g.nodesOf kind) : g.Reaches id :=
  reaches_iff.2 (of_mem_nodesOf mem).2

/-- on the way to a node of the kind, one is found -/
theorem Ascending.nodesWithin_ne_nil (ascending : g.Ascending) (is : g.hasKind kind id = true)
    {start depth : Nat}
    (way : Relation.ReflTransGen (fun id child => child ∈ g.children id) start id)
    (deep : g.slots.size - start ≤ depth) : g.nodesWithin kind depth start ≠ [] := by
  induction way using Relation.ReflTransGen.head_induction_on generalizing depth with
  | refl =>
    cases depth with
    | zero =>
      have := lt_size_of_hasKind is
      omega
    | succ depth =>
      unfold nodesWithin
      rw [if_pos is]
      exact List.cons_ne_nil _ _
  | @head start child mem _ ih =>
    obtain ⟨later, bound⟩ := ascending start child mem
    cases depth with
    | zero => omega
    | succ depth =>
      unfold nodesWithin
      split
      · exact List.cons_ne_nil _ _
      · intro nothing
        exact ih (by omega) (List.flatMap_eq_nil_iff.1 nothing child mem)

theorem Ascending.nodesOf_ne_nil (ascending : g.Ascending) (found : g.Found kind id) :
    g.nodesOf kind ≠ [] := by
  have way := reaches_iff.1 found.reached
  have within := ascending.nodesWithin_ne_nil found.kind way (Nat.sub_le _ _)
  obtain ⟨first, mem⟩ := List.exists_mem_of_ne_nil _ within
  exact List.ne_nil_of_mem (List.mem_eraseDups.2 mem)

/-! ## adding -/

@[simp] theorem orphaned_attachAll (child : Nat) (places : List Nat) (g : Generator) :
    (places.foldl (fun g place => g.attach child place) g).orphaned = g.orphaned := by
  induction places generalizing g with
  | nil => rfl
  | cons place places ih => exact ih (g.attach child place)

theorem addUnder_of_ne_nil (g : Generator) (node : Node) {parent : NodeKind}
    (differs : parent ≠ node.kind) (places : g.nodesOf parent ≠ []) :
    (g.addUnder node parent).2.orphaned = g.orphaned ∧
      (g.addUnder node parent).1 = if g.vacant node.kind parent = [] then
        ((g.nodesOf parent).findSome? (g.childOf? node.kind)).getD g.slots.size
      else g.slots.size := by
  unfold addUnder vacant
  rw [if_neg differs]
  dsimp only
  rw [if_neg (List.isEmpty_iff.not.2 places)]
  split
  · rename_i none
    rw [List.isEmpty_iff] at none
    rw [if_pos none]
    exact ⟨orphaned_attachAll _ _ _, rfl⟩
  · rename_i some_
    rw [List.isEmpty_iff] at some_
    rw [if_neg some_]
    exact ⟨orphaned_attachAll _ _ _, rfl⟩

/-- the tree that was added stands under its number -/
theorem holds_addUnder (g : Generator) (node : Node) (parent : NodeKind) :
    (g.addUnder node parent).2.Holds (.ofNode g.slots.size node) := by
  intro part inside
  obtain ⟨slot, later⟩ := holds_layOut g node part inside
  refine ⟨?_, later⟩
  have new := (Numbered.mem_ids_ofNode.1 ⟨part, inside, rfl⟩).1
  have elsewhere : part.id ∉ g.vacant node.kind parent := fun mem =>
    absurd (lt_size_of_hasKind (of_mem_vacant mem).1) (Nat.not_lt.2 new)
  rw [getElem?_addUnder, if_neg elsewhere, slot]

@[simp] theorem hasKind_addUnder_new (g : Generator) (node : Node) (parent : NodeKind) :
    (g.addUnder node parent).2.hasKind node.kind g.slots.size = true := by
  have root := (holds_addUnder g node parent).hasKind node.kind
  rw [Numbered.id_ofNode, ← Numbered.kind_node, Numbered.node_ofNode] at root
  exact root.trans (decide_eq_true rfl)

/-- where there are places, the number that is given is that of a child at one of them -/
theorem child_addUnder (g : Generator) (node : Node) {parent : NodeKind}
    (differs : parent ≠ node.kind) (places : g.nodesOf parent ≠ []) :
    (∃ place ∈ g.nodesOf parent,
        (g.addUnder node parent).1 ∈ (g.addUnder node parent).2.children place) ∧
      (g.addUnder node parent).2.hasKind node.kind (g.addUnder node parent).1 = true := by
  have grown := extends_addUnder g node parent
  rw [(addUnder_of_ne_nil g node differs places).2]
  by_cases none : g.vacant node.kind parent = []
  · rw [if_pos none]
    obtain ⟨place, mem⟩ := List.exists_mem_of_ne_nil _ places
    have taken : ∃ child, (g.nodesOf parent).findSome? (g.childOf? node.kind) = some child := by
      refine Option.isSome_iff_exists.1 (List.findSome?_isSome_iff.2 ⟨place, mem, ?_⟩)
      unfold vacant at none
      rw [if_neg differs] at none
      have occupied := List.filter_eq_nil_iff.1 none place mem
      rw [Option.isNone_iff_eq_none] at occupied
      exact Option.isSome_iff_ne_none.2 occupied
    obtain ⟨child, first⟩ := taken
    obtain ⟨own, there, found⟩ := List.exists_of_findSome?_eq_some first
    rw [first]
    exact ⟨⟨own, there, grown.children _ (List.mem_of_find?_eq_some found)⟩,
      grown.hasKind (List.find?_some found)⟩
  · rw [if_neg none]
    obtain ⟨place, mem⟩ := List.exists_mem_of_ne_nil _ none
    have there : place ∈ g.nodesOf parent := by
      unfold vacant at mem
      rw [if_neg differs] at mem
      exact (List.mem_filter.1 mem).1
    refine ⟨⟨place, there, ?_⟩, hasKind_addUnder_new g node parent⟩
    rw [children_addUnder_of_mem mem]
    exact List.mem_append_right _ List.mem_cons_self

/-- where there are places, the node is found afterwards at one of them -/
theorem found_addUnder (g : Generator) (node : Node) {parent : NodeKind}
    (differs : parent ≠ node.kind) (places : g.nodesOf parent ≠ []) :
    (g.addUnder node parent).2.Found node.kind (g.addUnder node parent).1 := by
  obtain ⟨⟨place, there, mem⟩, kind⟩ := child_addUnder g node differs places
  exact ⟨((reaches_of_mem_nodesOf there).mono (extends_addUnder g node parent)).child mem, kind⟩

/-- nothing was lost so far, and the active node and the saved ones are found from the root -/
structure Rooted (g : Generator) : Prop where
  ascending : g.Ascending
  root : g.hasKind .top 0 = true
  complete : g.orphaned = 0
  active : g.Reaches g.active
  saved : ∀ id ∈ g.saved, g.Reaches id

theorem rooted_new : Rooted {} where
  ascending := ascending_new
  root := rfl
  complete := rfl
  active := .root
  saved := fun _ mem => absurd mem List.not_mem_nil

/-- the kind of the active node -/
def activeKind (g : Generator) : NodeKind := g.kindAt g.active

theorem Keeps.activeKind_eq (keeps : Keeps g h) (bound : g.active < g.slots.size) :
    h.activeKind = g.activeKind := by
  have is : g.hasKind g.activeKind g.active = true := by
    rw [hasKind_eq bound]
    exact decide_eq_true rfl
  unfold activeKind
  rw [keeps.place.active]
  exact kindAt_of_hasKind (keeps.grown.hasKind is)

theorem children_modify (f : NodeInfo → NodeInfo) (g : Generator) (id own : Nat) :
    (g.modify id f).children own = g.children own := by
  unfold children modify
  rw [Array.getElem?_modify]
  split
  · rw [Option.map_map]
    rfl
  · rfl

namespace Rooted

theorem lt_size (rooted : g.Rooted) : g.active < g.slots.size :=
  rooted.active.lt_size rooted.ascending rooted.root

theorem keep (rooted : g.Rooted) (keeps : Keeps g h) (ascending : h.Ascending)
    (complete : h.orphaned = g.orphaned) : h.Rooted where
  ascending := ascending
  root := keeps.grown.hasKind rooted.root
  complete := complete.trans rooted.complete
  active := by
    rw [keeps.place.active]
    exact rooted.active.mono keeps.grown
  saved := by
    rw [keeps.place.saved]
    exact fun id mem => (rooted.saved id mem).mono keeps.grown

/-- **Adding loses nothing** below a node of another kind. -/
theorem add (rooted : g.Rooted) (node : Node) (differs : g.activeKind ≠ node.kind) :
    (g.add node).2.Rooted ∧ (g.add node).2.Found node.kind (g.add node).1 := by
  have same : g.add node = g.addUnder node g.activeKind := by
    unfold Generator.add activeKind kindAt info?
    rw [Array.getElem?_eq_getElem rooted.lt_size]
    rfl
  have found : g.Found g.activeKind g.active :=
    ⟨rooted.active, by rw [hasKind_eq rooted.lt_size]; exact decide_eq_true rfl⟩
  have places := rooted.ascending.nodesOf_ne_nil found
  have keeps := keeps_add g node
  rw [same] at keeps ⊢
  exact ⟨rooted.keep keeps (rooted.ascending.addUnder node _)
    (addUnder_of_ne_nil g node differs places).1, found_addUnder g node differs places⟩

/-- with other nodes active and saved, if they are found -/
theorem move (rooted : g.Rooted) (slots : h.slots = g.slots) (orphaned : h.orphaned = g.orphaned)
    (active : g.Reaches h.active) (saved : ∀ id ∈ h.saved, g.Reaches id) : h.Rooted where
  ascending := rooted.ascending.of_slots_eq slots
  root := (extends_of_slots_eq slots).hasKind rooted.root
  complete := orphaned.trans rooted.complete
  active := active.mono (extends_of_slots_eq slots)
  saved := fun id mem => (saved id mem).mono (extends_of_slots_eq slots)

theorem enter (rooted : g.Rooted) (info : NodeInfo) (differs : g.activeKind ≠ info.kind) :
    (g.enter info).Rooted ∧ (g.enter info).activeKind = info.kind := by
  obtain ⟨added, found⟩ := rooted.add (.mk info []) differs
  refine ⟨added.move rfl rfl found.reached fun id mem => ?_, kindAt_of_hasKind found.kind⟩
  rcases List.mem_cons.1 mem with rfl | mem
  · exact added.active
  · exact added.saved id mem

theorem descend (rooted : g.Rooted) (info : NodeInfo) (differs : g.activeKind ≠ info.kind) :
    (g.descend info).Rooted ∧ (g.descend info).activeKind = info.kind := by
  obtain ⟨added, found⟩ := rooted.add (.mk info []) differs
  exact ⟨added.move rfl rfl found.reached added.saved, kindAt_of_hasKind found.kind⟩

theorem markIncomplete (rooted : g.Rooted) : g.markIncomplete.Rooted :=
  rooted.move rfl rfl rooted.active rooted.saved

theorem pop {left : Generator} (rooted : g.Rooted) (popped : g.pop = .ok left) : left.Rooted := by
  unfold Generator.pop at popped
  split at popped
  · rename_i id saved there
    cases popped
    refine rooted.move rfl rfl ?_ fun other mem => ?_
    · exact rooted.saved id (there ▸ List.mem_cons_self)
    · exact rooted.saved other (there ▸ List.mem_cons_of_mem _ mem)
  · cases popped

theorem beginEntry (rooted : g.Rooted) :
    g.beginEntry.Rooted ∧ g.beginEntry.activeKind = .top :=
  ⟨rooted.move rfl rfl .root fun _ mem => absurd mem List.not_mem_nil,
    kindAt_of_hasKind rooted.root⟩

theorem loopChild (rooted : g.Rooted) (id slot : Nat) (start : Instruction) :
    (Contribution.loopChild id slot start g).Rooted := by
  unfold Contribution.loopChild
  split
  · rename_i child _
    have keeps : Keeps g (g.modify child (Contribution.looped start)) :=
      ⟨⟨rfl, rfl⟩, extends_modify (f := Contribution.looped start) (fun _ => rfl) g child⟩
    refine rooted.keep keeps (rooted.ascending.of_children_eq ?_ ?_) rfl
    · exact funext fun own => children_modify (Contribution.looped start) g child own
    · exact Nat.le_of_eq Array.size_modify.symm
  · exact rooted

end Rooted

end Generator

end Baskets
