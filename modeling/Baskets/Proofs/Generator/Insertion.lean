import Baskets.Proofs.Generator.Operations
import Baskets.Proofs.Generator.Rooted

/-!
# Where a tree is added

A tree is added below the first nodes of a kind on every way down from the root (`Generator.First`).
A generator is a graph, in which many ways lead to one node, and such a node gets the tree once.
Nothing of the tree is met on the way to these nodes, not even what is of the same kind as they; so
they are the same nodes when the tree is added again, and by then each of them has a child of its
kind (`Reached.inserted_addUnder`).
-/

namespace Baskets

namespace Generator

variable {g h : Generator} {kind parent : NodeKind} {id : Nat} {node : Node}

/-! ## states -/

/-- the generators that come about by what is done with a new one, and by changes to what its nodes
hold -/
inductive Reached : Generator → Prop where
  | new : Reached {}
  | operation {g : Generator} (before : Reached g) (operation : Operation)
    (known : operation.Known g) : Reached (operation.run g).2
  | modify {g : Generator} (before : Reached g) (id : Nat) (known : id < g.slots.size)
    (f : NodeInfo → NodeInfo) : Reached (g.modify id f)

theorem Run.reached {operations : List Operation} (run : Run g operations h)
    (before : g.Reached) : h.Reached := by
  induction run with
  | done => exact before
  | step known _ ih => exact ih (before.operation _ known)

theorem Sound.modify (sound : g.Sound) (id : Nat) (f : NodeInfo → NodeInfo) :
    (g.modify id f).Sound := by
  have size : (g.modify id f).slots.size = g.slots.size := Array.size_modify
  refine ⟨sound.ascending.of_children_eq (funext (children_modify f g id)) size.ge, ?_, ?_⟩
  · rw [size]
    exact sound.active
  · rw [size]
    exact sound.saved

theorem Reached.sound (reached : g.Reached) : g.Sound := by
  induction reached with
  | new => exact sound_new
  | operation _ _ known ih => exact ih.run known
  | modify _ id _ f ih => exact ih.modify id f

/-! ## the first nodes of a kind -/

/-- a step down from a node of another kind -/
def Passes (g : Generator) (kind : NodeKind) (id child : Nat) : Prop :=
  g.hasKind kind id = false ∧ child ∈ g.children id

/-- the node is of the kind, and on some way from the root to it there is none of the kind before -/
structure First (g : Generator) (kind : NodeKind) (id : Nat) : Prop where
  way : Relation.ReflTransGen (g.Passes kind) 0 id
  kind : g.hasKind kind id = true

/-- **A walk finds** the first nodes of the kind, if it goes deep enough. -/
theorem Ascending.mem_nodesWithin (ascending : g.Ascending) {depth start : Nat}
    (deep : g.slots.size - start ≤ depth) : id ∈ g.nodesWithin kind depth start ↔
      Relation.ReflTransGen (g.Passes kind) start id ∧ g.hasKind kind id = true := by
  induction depth generalizing start with
  | zero =>
    unfold nodesWithin
    constructor
    · intro mem
      split at mem
      · obtain rfl := List.mem_singleton.1 mem
        exact ⟨.refl, ‹_›⟩
      · cases mem
    · rintro ⟨way, is⟩
      rcases way.cases_head with rfl | ⟨child, ⟨-, mem⟩, -⟩
      · rw [if_pos is]
        exact List.mem_singleton_self _
      · have := lt_size_of_mem_children mem
        omega
  | succ depth ih =>
    unfold nodesWithin
    by_cases here : g.hasKind kind start = true
    · rw [if_pos here, List.mem_singleton]
      constructor
      · rintro rfl
        exact ⟨.refl, here⟩
      · rintro ⟨way, -⟩
        rcases way.cases_head with same | ⟨child, ⟨other, -⟩, -⟩
        · exact same.symm
        · exact absurd here (Bool.eq_false_iff.1 other)
    · have below (child : Nat) (mem : child ∈ g.children start) :
          g.slots.size - child ≤ depth := by
        have := ascending start child mem
        omega
      rw [if_neg here, List.mem_flatMap]
      constructor
      · rintro ⟨child, mem, inside⟩
        obtain ⟨way, is⟩ := (ih (below child mem)).1 inside
        exact ⟨.head ⟨Bool.eq_false_iff.2 here, mem⟩ way, is⟩
      · rintro ⟨way, is⟩
        rcases way.cases_head with rfl | ⟨child, ⟨-, mem⟩, rest⟩
        · exact absurd is here
        · exact ⟨child, mem, (ih (below child mem)).2 ⟨rest, is⟩⟩

theorem Ascending.mem_nodesOf (ascending : g.Ascending) :
    id ∈ g.nodesOf kind ↔ g.First kind id := by
  unfold nodesOf
  rw [List.mem_eraseDups, ascending.mem_nodesWithin (Nat.sub_le _ _)]
  exact ⟨fun ⟨way, is⟩ => ⟨way, is⟩, fun first => ⟨first.way, first.kind⟩⟩

/-- the nodes that get a tree of the kind: the first ones of kind `parent`, unless the tree is of
that kind itself -/
structure Place (g : Generator) (kind parent : NodeKind) (id : Nat) : Prop where
  differs : parent ≠ kind
  first : g.First parent id

theorem Ascending.mem_vacant (ascending : g.Ascending) : id ∈ g.vacant kind parent ↔
    g.Place kind parent id ∧ ∀ child ∈ g.children id, ¬ g.hasKind kind child = true := by
  unfold vacant
  rw [List.mem_filter, Option.isNone_iff_eq_none, childOf?_eq_none]
  refine and_congr_left' ?_
  split
  · exact iff_of_false List.not_mem_nil fun place => place.differs ‹_›
  · rw [ascending.mem_nodesOf]
    exact ⟨fun first => ⟨‹_›, first⟩, Place.first⟩

/-! ## after a tree was added -/

theorem info?_addUnder_of_lt (node : Node) (parent : NodeKind) (old : id < g.slots.size) :
    (g.addUnder node parent).2.info? id = g.info? id := by
  rw [info?_addUnder]
  unfold info?
  rw [getElem?_layOut_of_lt node old]

theorem hasKind_addUnder_of_lt (node : Node) (parent kind : NodeKind) (old : id < g.slots.size) :
    (g.addUnder node parent).2.hasKind kind id = g.hasKind kind id := by
  unfold hasKind
  rw [info?_addUnder_of_lt node parent old]

/-- an old node gets no child where nothing is hung -/
theorem children_addUnder_of_old (old : id < g.slots.size)
    (full : id ∉ g.vacant node.kind parent) :
    (g.addUnder node parent).2.children id = g.children id := by
  rw [children_addUnder_of_notMem full, children_layOut_of_lt node old]

theorem Place.lt_size (place : g.Place kind parent id) : id < g.slots.size :=
  lt_size_of_hasKind place.first.kind

/-- a tree that is laid out is found under its first number -/
theorem Holds.tree_ofNode {next : Nat} (holds : g.Holds (.ofNode next node)) :
    g.tree next = node := by
  have tree := holds.treeWithin _ (Nat.le_refl _)
  rwa [Numbered.id_ofNode, Numbered.node_ofNode] at tree

@[simp] theorem tree_addUnder (g : Generator) (node : Node) (parent : NodeKind) :
    (g.addUnder node parent).2.tree g.slots.size = node :=
  (holds_addUnder g node parent).tree_ofNode

/-- as long as the old nodes stay, so do their trees -/
theorem Ascending.tree_eq_of_slots (ascending : g.Ascending) (later : h.Ascending)
    (same : ∀ own < g.slots.size, h.slots[own]? = g.slots[own]?) (old : id < g.slots.size) :
    h.tree id = g.tree id := by
  induction above : g.slots.size - id using Nat.strongRecOn generalizing id with
  | ind above_ ih =>
    have info : h.info? id = g.info? id := by
      unfold info?
      rw [same id old]
    have children : h.children id = g.children id := by
      unfold Generator.children
      rw [same id old]
    rw [later.tree_eq, ascending.tree_eq, info, children]
    congr 1
    refine List.map_congr_left fun child mem => ?_
    obtain ⟨after, bound⟩ := ascending id child mem
    exact ih _ (by omega) bound rfl

/-- where every place is taken, old trees stay as they are -/
theorem Ascending.tree_addUnder_of_taken (ascending : g.Ascending)
    (taken : g.vacant node.kind parent = []) (old : id < g.slots.size) :
    (g.addUnder node parent).2.tree id = g.tree id := by
  refine ascending.tree_eq_of_slots (ascending.addUnder node parent) (fun own old => ?_) old
  rw [getElem?_addUnder, taken, if_neg List.not_mem_nil, getElem?_layOut_of_lt node old]

/-- and so does the tree below the root -/
theorem Sound.node_addUnder (sound : g.Sound) (taken : g.vacant node.kind parent = []) :
    (g.addUnder node parent).2.node = g.node :=
  sound.ascending.tree_addUnder_of_taken taken (Nat.zero_lt_of_lt sound.active)

/-- nothing of the tree is met on the way to the places, so no place is new -/
theorem Sound.place_of_addUnder (sound : g.Sound)
    (later : (g.addUnder node parent).2.Place node.kind parent id) :
    g.Place node.kind parent id := by
  obtain ⟨differs, way, is⟩ := later
  have old : Relation.ReflTransGen (g.Passes parent) 0 id ∧ id < g.slots.size := by
    clear is
    induction way with
    | refl => exact ⟨.refl, Nat.zero_lt_of_lt sound.active⟩
    | tail _ pass ih =>
      obtain ⟨way, old⟩ := ih
      obtain ⟨other, mem⟩ := pass
      rw [hasKind_addUnder_of_lt node parent parent old] at other
      have elsewhere (vacant : _ ∈ g.vacant node.kind parent) : False :=
        Bool.eq_false_iff.1 other (of_mem_vacant vacant).1
      rw [children_addUnder_of_old old elsewhere] at mem
      exact ⟨way.tail ⟨other, mem⟩, (sound.ascending _ _ mem).2⟩
  rw [hasKind_addUnder_of_lt node parent parent old.2] at is
  exact ⟨differs, old.1, is⟩

/-- at every place there is now a child of the kind -/
theorem Sound.vacant_addUnder (sound : g.Sound) (node : Node) (parent : NodeKind) :
    (g.addUnder node parent).2.vacant node.kind parent = [] := by
  refine List.eq_nil_iff_forall_not_mem.2 fun id mem => ?_
  have later := sound.ascending.addUnder node parent
  obtain ⟨again, free⟩ := later.mem_vacant.1 mem
  have place := sound.place_of_addUnder again
  by_cases vacant : id ∈ g.vacant node.kind parent
  · rw [children_addUnder_of_mem vacant] at free
    exact free _ List.mem_concat_self (hasKind_addUnder_new g node parent)
  · rw [children_addUnder_of_old place.lt_size vacant] at free
    refine vacant (sound.ascending.mem_vacant.2 ⟨place, fun child mem => ?_⟩)
    rw [← hasKind_addUnder_of_lt node parent node.kind (sound.ascending _ _ mem).2]
    exact free child mem

/-- without a place, the tree is an orphan -/
theorem Ascending.addUnder_of_not_place (ascending : g.Ascending)
    (none : ∀ id, ¬ g.Place node.kind parent id) :
    (g.addUnder node parent).2.orphaned = g.orphaned + 1 ∧
      (g.addUnder node parent).1 = g.slots.size := by
  have places : (if parent = node.kind then [] else g.nodesOf parent) = [] := by
    split
    · rfl
    · exact List.eq_nil_iff_forall_not_mem.2 fun id mem =>
        none id ⟨‹_›, ascending.mem_nodesOf.1 mem⟩
  unfold Generator.addUnder
  rw [places]
  exact ⟨rfl, rfl⟩

/-- with a place, it is none, and the number that is given is that of a child at some place -/
theorem Ascending.addUnder_of_place (ascending : g.Ascending)
    (place : g.Place node.kind parent id) :
    (g.addUnder node parent).2.orphaned = g.orphaned ∧
      (∃ own, g.Place node.kind parent own ∧
        (g.addUnder node parent).1 ∈ (g.addUnder node parent).2.children own) ∧
      (g.addUnder node parent).2.hasKind node.kind (g.addUnder node parent).1 = true := by
  have places := List.ne_nil_of_mem (ascending.mem_nodesOf.2 place.first)
  obtain ⟨⟨own, there, mem⟩, kind⟩ := child_addUnder g node place.differs places
  exact ⟨(addUnder_of_ne_nil g node place.differs places).1,
    ⟨own, ⟨place.differs, ascending.mem_nodesOf.1 there⟩, mem⟩, kind⟩

/-- what there is to say about a tree that was added below a kind -/
structure Inserted (g : Generator) (node : Node) (parent : NodeKind) (given : Nat)
    (later : Generator) : Prop where
  vacant (id : Nat) (place : g.Place node.kind parent id)
    (free : ∀ child ∈ g.children id, ¬ g.hasKind node.kind child = true) :
    later.children id = g.children id ++ [g.slots.size]
  taken (id : Nat) (place : g.Place node.kind parent id)
    (there : ∃ child ∈ g.children id, g.hasKind node.kind child = true) :
    later.children id = g.children id
  elsewhere (id : Nat) (old : id < g.slots.size) (other : ¬ g.Place node.kind parent id) :
    later.children id = g.children id
  info (id : Nat) (old : id < g.slots.size) : later.info? id = g.info? id
  tree : later.tree g.slots.size = node
  orphan (none : ∀ id, ¬ g.Place node.kind parent id) :
    later.orphaned = g.orphaned + 1 ∧ later.node = g.node
  placed (some : ∃ id, g.Place node.kind parent id) :
    later.orphaned = g.orphaned ∧ ∃ id, g.Place node.kind parent id ∧ given ∈ later.children id
  kind : later.hasKind node.kind given = true

/-- **Adding a tree below a kind.**  In every state, the tree comes behind the children of all
places that have none of its kind yet, and nothing else happens to the nodes that were there.  Only
without a place is the tree an orphan.  The number that is given is that of a node of the kind, at
some place if there is one; and to add the tree again changes nothing that is found from the root,
whatever kinds there are in the tree. -/
theorem Reached.inserted_addUnder (reached : g.Reached) (node : Node) (parent : NodeKind) :
    Inserted g node parent (g.addUnder node parent).1 (g.addUnder node parent).2 ∧
      ((g.addUnder node parent).2.addUnder node parent).2.node =
        (g.addUnder node parent).2.node := by
  have sound := reached.sound
  have ascending := sound.ascending
  have kept {id : Nat} (old : id < g.slots.size) (full : id ∉ g.vacant node.kind parent) :
      (g.addUnder node parent).2.children id = g.children id := by
    rw [children_addUnder_of_notMem full, children_layOut_of_lt node old]
  have later : (g.addUnder node parent).2.Sound :=
    @Sound.run g (.addUnder node parent) sound trivial
  refine ⟨?_, later.node_addUnder (sound.vacant_addUnder node parent)⟩
  constructor
  case vacant =>
    exact fun id place free => children_addUnder_of_mem (ascending.mem_vacant.2 ⟨place, free⟩)
  case taken =>
    rintro id place ⟨child, mem, is⟩
    exact kept place.lt_size fun vacant => (ascending.mem_vacant.1 vacant).2 child mem is
  case elsewhere =>
    exact fun id old other => kept old fun vacant => other (ascending.mem_vacant.1 vacant).1
  case info => exact fun id old => info?_addUnder_of_lt node parent old
  case tree => exact tree_addUnder g node parent
  case orphan =>
    intro none
    refine ⟨(ascending.addUnder_of_not_place none).1, sound.node_addUnder ?_⟩
    exact List.eq_nil_iff_forall_not_mem.2 fun id vacant =>
      none id (ascending.mem_vacant.1 vacant).1
  case placed =>
    rintro ⟨id, place⟩
    obtain ⟨orphaned, child, -⟩ := ascending.addUnder_of_place place
    exact ⟨orphaned, child⟩
  case kind =>
    by_cases some : ∃ id, g.Place node.kind parent id
    · exact (ascending.addUnder_of_place some.choose_spec).2.2
    · rw [(ascending.addUnder_of_not_place (not_exists.1 some)).2]
      exact hasKind_addUnder_new g node parent

/-! ### one place taken, one free -/

/-- two nodes of a kind, of which the first has a leaf -/
def uneven : List Operation :=
  [.add (.mk { kind := .base "a" } [.mk { kind := .field "x" } [.mk { kind := .field "leaf" } []]]),
    .add (.mk { kind := .base "b" } [.mk { kind := .field "x" } []])]

/-- a leaf with a node below it that is of the kind of its places -/
def recurring : Node := .mk { kind := .field "leaf" } [.mk { kind := .field "x" } []]

theorem inserted_addUnder_recurring : ∃ g later : Generator, g.Reached ∧
    g.addUnder recurring (.field "x") = (6, later) ∧
    Inserted g recurring (.field "x") 6 later ∧
    later.children 2 = [3] ∧ later.children 5 = [6] ∧ later.orphaned = 0 ∧
    (later.addUnder recurring (.field "x")).2.node = later.node := by
  have run : Run {} uneven (uneven.foldl (fun g own => (Operation.run g own).2) {}) :=
    .step trivial (.step trivial (.done _))
  obtain ⟨inserted, again⟩ :=
    (run.reached .new).inserted_addUnder recurring (.field "x")
  have given : (Generator.addUnder (uneven.foldl (fun g own => (Operation.run g own).2) {})
      recurring (.field "x")).1 = 6 := by
    decide +kernel
  rw [given] at inserted
  exact ⟨_, _, run.reached .new, Prod.ext given rfl, inserted, by decide +kernel,
    by decide +kernel, by decide +kernel, again⟩

end Generator

end Baskets
