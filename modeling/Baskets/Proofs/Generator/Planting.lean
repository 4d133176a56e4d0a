import Baskets.Proofs.Generator.Insertion
import Baskets.Proofs.Plan.Form

/-!
# Trees that are added are found again

A tree comes into a generator node by node: a node without its children, then the trees of the
children one after the other, and at last the numbers of the children in their node
(`Generator.plant`).  What this comes to is the tree laid out behind the other nodes (`plant_eq`).
Right after a tree was added, it stands under the number that is given, at every place that it got
or at none; only where every place had a node of its kind, the number is that of such a node, and
the tree of that node is as it was (`Reached.tree_of_added`).
-/

namespace Baskets

/-! ## a root with one tree -/

theorem Node.program_root (node : Node) :
    (Node.mk { kind := .top } [node]).program = node.program := by
  unfold Node.program
  simp [Node.inOrder, Node.inOrderAll, Node.code, Node.codeAll]

/-- the root adds nothing to the program and the form of the tree below it -/
theorem Model.ofNode_root (node : Node) :
    Model.ofNode (.mk { kind := .top } [node]) = do
      return { node := .mk { kind := .top } [node], program := node.program,
               form := ← node.form } := by
  unfold Model.ofNode
  rw [Node.program_root, Node.form_wrapper rfl rfl]

namespace Generator

variable {g : Generator} {node : Node} {parent : NodeKind}

/-! ## node by node -/

mutual

/-- puts a tree behind the other nodes, each node before its children, and tells it their numbers
when all of them are there; gives the number of the root -/
def plant (g : Generator) : Node → Nat × Generator
  | .mk info children =>
    let id := g.slots.size
    let (ids, grown) := plantAll { g with slots := g.slots.push { info } } children
    (id, { grown with slots := grown.slots.modify id fun slot => { slot with children := ids } })

/-- puts trees behind the other nodes, one after the other -/
def plantAll (g : Generator) : List Node → List Nat × Generator
  | [] => ([], g)
  | node :: nodes =>
    let (id, grown) := g.plant node
    let (ids, later) := grown.plantAll nodes
    (id :: ids, later)

end

/-- numbers the nodes of some trees -/
def layOutAll (g : Generator) (nodes : List Node) : Generator :=
  { g with slots := g.slots ++ (Slot.ofNodes g.slots.size nodes).toArray }

@[simp] theorem layOutAll_nil (g : Generator) : g.layOutAll [] = g := by
  unfold layOutAll Slot.ofNodes
  simp

@[simp] theorem layOutAll_cons (g : Generator) (node : Node) (nodes : List Node) :
    g.layOutAll (node :: nodes) = (g.layOut node).layOutAll nodes := by
  unfold layOutAll
  rw [size_layOut]
  unfold layOut
  simp [Slot.ofNodes]

/-- only the slot that comes right behind some others changes -/
theorem modify_append_cons (slots : Array Slot) (first : Slot) (rest : List Slot)
    (f : Slot → Slot) : (slots ++ (first :: rest).toArray).modify slots.size f =
      slots ++ (f first :: rest).toArray := by
  rw [← Array.toList_inj, Array.toList_modify, List.modify_eq_take_drop]
  simp

mutual

/-- **Node by node** a tree is laid out behind the nodes that are there. -/
theorem plant_eq (g : Generator) : (node : Node) → g.plant node = (g.slots.size, g.layOut node)
  | .mk info children => by
    unfold plant
    -- the children are put behind a slot that still lacks their numbers
    rw [plantAll_eq]
    unfold layOutAll layOut Slot.ofNode
    simp [modify_append_cons]

theorem plantAll_eq (g : Generator) : (nodes : List Node) →
    g.plantAll nodes = (Slot.numbers g.slots.size nodes, g.layOutAll nodes)
  | [] => by
    unfold plantAll Slot.numbers
    simp
  | node :: nodes => by
    unfold plantAll Slot.numbers
    rw [plant_eq g node]
    dsimp only
    simp [plantAll_eq (g.layOut node) nodes]

end

/-- a tree is there as soon as its nodes are, before it hangs anywhere -/
@[simp] theorem tree_plant (g : Generator) (node : Node) :
    (g.plant node).2.tree (g.plant node).1 = node := by
  rw [plant_eq]
  exact (holds_layOut g node).tree_ofNode

/-! ## the number that is given -/

/-- some node that was there has other children than before -/
def Attached (g later : Generator) : Prop :=
  ∃ id < g.slots.size, later.children id ≠ g.children id

instance (g later : Generator) : Decidable (Attached g later) :=
  inferInstanceAs (Decidable (∃ id < g.slots.size, _))

theorem attached_iff :
    Attached g (g.addUnder node parent).2 ↔ g.vacant node.kind parent ≠ [] := by
  constructor
  · rintro ⟨id, old, changed⟩ taken
    exact changed (children_addUnder_of_old old (taken ▸ List.not_mem_nil))
  · intro free
    obtain ⟨id, mem⟩ := List.exists_mem_of_ne_nil _ free
    refine ⟨id, lt_size_of_hasKind (of_mem_vacant mem).1, ?_⟩
    rw [children_addUnder_of_mem mem]
    simp

namespace Ascending

/-- what hangs somewhere has the number of the tree that was added -/
theorem fst_addUnder_of_attached (ascending : g.Ascending)
    (attached : Attached g (g.addUnder node parent).2) :
    (g.addUnder node parent).1 = g.slots.size := by
  have free := attached_iff.1 attached
  obtain ⟨id, mem⟩ := List.exists_mem_of_ne_nil _ free
  obtain ⟨place, -⟩ := ascending.mem_vacant.1 mem
  have places := List.ne_nil_of_mem (ascending.mem_nodesOf.2 place.first)
  rw [(addUnder_of_ne_nil g node place.differs places).2, if_neg free]

/-- and so has what found no place -/
theorem fst_addUnder_of_orphan (ascending : g.Ascending)
    (orphan : (g.addUnder node parent).2.orphaned ≠ g.orphaned) :
    (g.addUnder node parent).1 = g.slots.size := by
  refine (ascending.addUnder_of_not_place fun id place => orphan ?_).2
  exact (ascending.addUnder_of_place place).1

/-- where all places are taken, the number is that of an old node -/
theorem fst_addUnder_of_taken (ascending : g.Ascending) (taken : g.vacant node.kind parent = [])
    (placed : (g.addUnder node parent).2.orphaned = g.orphaned) :
    (g.addUnder node parent).1 < g.slots.size := by
  have some_ : ∃ id, g.Place node.kind parent id := by
    by_contra none
    have orphan := (ascending.addUnder_of_not_place (not_exists.1 none)).1
    omega
  obtain ⟨id, place⟩ := some_
  obtain ⟨-, ⟨own, there, mem⟩, -⟩ := ascending.addUnder_of_place place
  rw [children_addUnder_of_old there.lt_size (taken ▸ List.not_mem_nil)] at mem
  exact (ascending own _ mem).2

end Ascending

/-- what is found of a tree right after it was added: the tree, if it hangs somewhere or found no
place; else a node that was there, with its tree as it was -/
structure Recovers (g : Generator) (node : Node) (given : Nat) (later : Generator) : Prop where
  walk (id : Nat) :
    later.tree id = .mk ((later.info? id).getD default) ((later.children id).map later.tree)
  attached (hung : Attached g later) : later.tree given = node
  detached (orphan : later.orphaned ≠ g.orphaned) : later.tree given = node
  taken (none : ¬ Attached g later) (placed : later.orphaned = g.orphaned) :
    given < g.slots.size ∧ later.tree given = g.tree given

theorem Sound.recovers (sound : g.Sound) (node : Node) (parent : NodeKind) :
    Recovers g node (g.addUnder node parent).1 (g.addUnder node parent).2 := by
  have ascending := sound.ascending
  constructor
  case walk => exact (ascending.addUnder node parent).tree_eq
  case attached =>
    intro hung
    rw [ascending.fst_addUnder_of_attached hung]
    exact tree_addUnder g node parent
  case detached =>
    intro orphan
    rw [ascending.fst_addUnder_of_orphan orphan]
    exact tree_addUnder g node parent
  case taken =>
    intro none placed
    have taken : g.vacant node.kind parent = [] := not_not.1 (attached_iff.not.1 none)
    have old := ascending.fst_addUnder_of_taken taken placed
    exact ⟨old, ascending.tree_addUnder_of_taken taken old⟩

/-! ## a new generator -/

theorem zero_mem_vacant_new {kind : NodeKind} :
    0 ∈ ({} : Generator).vacant kind .top ↔ kind ≠ .top := by
  constructor
  · exact fun mem same => (of_mem_vacant mem).2.1 same.symm
  · exact fun other => ascending_new.mem_vacant.2
      ⟨⟨Ne.symm other, .refl, rfl⟩, fun _ mem => absurd mem List.not_mem_nil⟩

/-- the root of a new generator takes any tree but another root -/
theorem node_add_new (node : Node) : (Generator.add {} node).2.node =
    .mk { kind := .top } (if node.kind = .top then [] else [node]) := by
  have root : 0 < ({} : Generator).slots.size := Nat.zero_lt_one
  have tree : (Generator.addUnder {} node .top).2.tree 1 = node := tree_addUnder {} node .top
  have below : (Generator.addUnder {} node .top).2.children 0 =
      if node.kind = .top then [] else [1] := by
    by_cases same : node.kind = .top
    · rw [if_pos same, children_addUnder_of_old root fun mem => zero_mem_vacant_new.1 mem same]
      rfl
    · rw [if_neg same, children_addUnder_of_mem (zero_mem_vacant_new.2 same)]
      rfl
  show (Generator.addUnder {} node .top).2.tree 0 = _
  rw [(ascending_new.addUnder node .top).tree_eq, info?_addUnder_of_lt node .top root, below]
  split
  · rfl
  · rw [List.map_singleton, tree]
    rfl

/-- **What is added is found again.**  To put in a tree node by node is to lay it out, and then the
tree is there.  In every state, right after a tree was added below the nodes of some kind, or of the
kind of the active node, it stands under the number that is given if it hangs somewhere now, and if
it found no place; if neither is so, the number is that of an old node, and the tree of that node is
as it was.  A new generator has any tree that is no root itself as the only one below its root, and
its model is made of that, with the program and the form of the tree that was added. -/
theorem Reached.tree_of_added (reached : g.Reached) (node : Node) :
    g.plant node = (g.slots.size, g.layOut node) ∧
    (g.plant node).2.tree (g.plant node).1 = node ∧
    (∀ parent, Recovers g node (g.addUnder node parent).1 (g.addUnder node parent).2) ∧
    Recovers g node (g.add node).1 (g.add node).2 ∧
    (node.kind ≠ .top →
      (Generator.add {} node).2.node = .mk { kind := .top } [node] ∧
      (Generator.add {} node).2.model = Model.ofNode (.mk { kind := .top } [node]) ∧
      Model.ofNode (.mk { kind := .top } [node]) = do
        return { node := .mk { kind := .top } [node], program := node.program,
                 form := ← node.form }) := by
  have recovers := reached.sound.recovers node
  refine ⟨plant_eq g node, tree_plant g node, recovers, recovers _, fun other => ?_⟩
  have whole : (Generator.add {} node).2.node = .mk { kind := .top } [node] := by
    rw [node_add_new, if_neg other]
  exact ⟨whole, congrArg Model.ofNode whole, Model.ofNode_root node⟩

/-! ### two places, none, and one that is taken -/

/-- two nodes of a kind -/
def forking : List Operation :=
  [.add (.mk { kind := .base "a" } [.mk { kind := .field "x" } []]),
    .add (.mk { kind := .base "b" } [.mk { kind := .field "x" } []])]

/-- the second of the two holds some code -/
def forked : Generator :=
  (forking.foldl (fun g own => (Operation.run g own).2) {}).modify 4 fun info =>
    { info with pre := ["dup "] }

/-- a tree with two children of one kind, and with a node of the kind of its places -/
def branching : Node :=
  .mk { kind := .field "list", pre := ["dup "] }
    [.mk { kind := .field "y", post := ["drop "] } [.mk { kind := .field "x" } []],
      .mk { kind := .field "y" } []]

theorem reached_forked : forked.Reached := by
  have run : Run {} forking (forking.foldl (fun g own => (Operation.run g own).2) {}) :=
    .step trivial (.step trivial (.done _))
  exact .modify (run.reached .new) 4 (by decide +kernel) _

theorem tree_of_added_branching : forked.Reached ∧
    (forked.plant branching).2.tree 5 = branching ∧
    (∃ later, forked.addUnder branching (.field "x") = (5, later) ∧
      later.children 2 = [5] ∧ later.children 4 = [5] ∧ later.tree 5 = branching) ∧
    (∃ later, forked.addUnder branching (.field "z") = (5, later) ∧
      later.orphaned = 1 ∧ later.tree 5 = branching) ∧
    (∃ later, forked.add (.mk { kind := .base "a" } []) = (1, later) ∧
      later.tree 1 = forked.tree 1) ∧
    (Generator.add {} branching).2.node = .mk { kind := .top } [branching] ∧
    (Generator.add {} branching).2.model = Model.ofNode (.mk { kind := .top } [branching]) := by
  obtain ⟨-, planted, under, -, fresh⟩ := reached_forked.tree_of_added branching
  obtain ⟨-, -, -, again, -⟩ := reached_forked.tree_of_added (.mk { kind := .base "a" } [])
  have put : (forked.plant branching).1 = 5 := by decide +kernel
  have hung : (forked.addUnder branching (.field "x")).1 = 5 := by decide +kernel
  have lost : (forked.addUnder branching (.field "z")).1 = 5 := by decide +kernel
  have kept : (forked.add (.mk { kind := .base "a" } [])).1 = 1 := by decide +kernel
  have first := (under (.field "x")).attached (by decide +kernel)
  have second := (under (.field "z")).detached (by decide +kernel)
  have third := (again.taken (by decide +kernel) (by decide +kernel)).2
  rw [put] at planted
  rw [hung] at first
  rw [lost] at second
  rw [kept] at third
  obtain ⟨whole, model, -⟩ := fresh (by decide)
  exact ⟨reached_forked, planted,
    ⟨_, Prod.ext hung rfl, by decide +kernel, by decide +kernel, first⟩,
    ⟨_, Prod.ext lost rfl, by decide +kernel, second⟩, ⟨_, Prod.ext kept rfl, third⟩, whole, model⟩

end Generator

end Baskets
