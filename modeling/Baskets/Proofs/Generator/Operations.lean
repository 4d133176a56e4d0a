import Baskets.Proofs.Generator.Ascending

/-!
# What operations on a generator keep

All that can be done with a generator is an `Operation`: trees are added below the active node or
below the nodes of a kind, the active node is moved, by number or over the saved nodes, and entries
begin and turn out to be incomplete.  Any node that is there may be made active, also one that hangs
below no other.  Whatever is done in whatever order (`Generator.Run`), children come after their
parents and all numbers belong to nodes (`Sound`), children of one node stay of different kinds if
the trees that are added have such children, and nodes only ever gain children at the end
(`Run.keeps_order`).
-/

namespace Baskets

/-- the faults of the generator itself, and of those who build models, whatever was to be read -/
def Fault.ofGeneration : Fault → Bool
  | .emptyStack | .build _ => true
  | _ => false

namespace Generator

/-- what can be done with a generator -/
inductive Operation where
  | add (node : Node)
  | addUnder (node : Node) (parent : NodeKind)
  | activate (id : Nat)
  | push (id : Nat)
  | pop
  | reset
  | beginEntry
  | markIncomplete

namespace Operation

/-- what an operation comes to, and the generator after it -/
def run (g : Generator) : Operation → Except Fault Unit × Generator
  | .add node => (.ok (), (g.add node).2)
  | .addUnder node parent => (.ok (), (g.addUnder node parent).2)
  | .activate id => (.ok (), g.activate id)
  | .push id => (.ok (), g.push id)
  | .pop =>
    match g.pop with
    | .ok left => (.ok (), left)
    | .error fault => (.error fault, g)
  | .reset => (.ok (), g.reset)
  | .beginEntry => (.ok (), g.beginEntry)
  | .markIncomplete => (.ok (), g.markIncomplete)

/-- the number that is asked for belongs to a node -/
def Known (g : Generator) : Operation → Prop
  | .activate id | .push id => id < g.slots.size
  | _ => True

/-- the tree that is added -/
def added? : Operation → Option Node
  | .add node | .addUnder node _ => some node
  | _ => none

end Operation

/-- operations on one generator that lead to another -/
inductive Run : Generator → List Operation → Generator → Prop where
  | done (g : Generator) : Run g [] g
  | step {g h : Generator} {operation : Operation} {later : List Operation}
    (known : operation.Known g) (rest : Run (operation.run g).2 later h) :
    Run g (operation :: later) h

/-! ## one operation -/

/-- children come after their parents, and the active node and the saved ones are there -/
structure Sound (g : Generator) : Prop where
  ascending : g.Ascending
  active : g.active < g.slots.size
  saved : ∀ id ∈ g.saved, id < g.slots.size

variable {g h : Generator} {operation : Operation} {operations : List Operation}

theorem sound_new : Sound {} where
  ascending := ascending_new
  active := Nat.zero_lt_one
  saved := fun _ mem => absurd mem List.not_mem_nil

/-- an operation adds a tree below the nodes of some kind, or leaves all nodes as they are -/
theorem run_cases (g : Generator) (operation : Operation) :
    (∃ node parent, operation.added? = some node ∧
        (operation.run g).2 = (g.addUnder node parent).2) ∨
      (operation.run g).2.slots = g.slots := by
  cases operation with
  | add node => exact .inl ⟨node, _, rfl, rfl⟩
  | addUnder node parent => exact .inl ⟨node, parent, rfl, rfl⟩
  | pop =>
    refine .inr ?_
    unfold Operation.run pop
    cases g.saved with
    | nil => rfl
    | cons id saved => rfl
  | _ => exact .inr rfl

/-- **Nodes stay as they are**, and gain children only behind those they have. -/
theorem grows_run (g : Generator) (operation : Operation) : Grows g (operation.run g).2 := by
  rcases run_cases g operation with ⟨node, parent, -, same⟩ | same
  · rw [same]
    exact grows_addUnder g node parent
  · exact grows_of_slots_eq same

theorem Grows.size_le (grows : Grows g h) : g.slots.size ≤ h.slots.size := by
  refine Nat.le_of_not_lt fun fewer => ?_
  obtain ⟨later, there, -⟩ := grows _ _ (Array.getElem?_eq_getElem fewer)
  exact absurd (Array.getElem?_eq_some_iff.1 there).1 (Nat.lt_irrefl _)

theorem Ascending.run (ascending : g.Ascending) (operation : Operation) :
    (operation.run g).2.Ascending := by
  rcases run_cases g operation with ⟨node, parent, -, same⟩ | same
  · rw [same]
    exact ascending.addUnder node parent
  · exact ascending.of_slots_eq same

theorem SiblingsDiffer.run (differ : g.SiblingsDiffer) (ascending : g.Ascending)
    (added : ∀ node ∈ operation.added?, node.SiblingsDiffer) :
    (operation.run g).2.SiblingsDiffer := by
  rcases run_cases g operation with ⟨node, parent, is, same⟩ | same
  · rw [same]
    exact differ.addUnder ascending (added node is) parent
  · exact differ.of_slots_eq same

theorem Sound.of_samePlace (sound : g.Sound) (ascending : h.Ascending) (same : SamePlace g h)
    (size : g.slots.size ≤ h.slots.size) : h.Sound where
  ascending := ascending
  active := by
    rw [same.active]
    exact Nat.lt_of_lt_of_le sound.active size
  saved := by
    rw [same.saved]
    exact fun id mem => Nat.lt_of_lt_of_le (sound.saved id mem) size

/-- **One step**: what is sound stays sound. -/
theorem Sound.run (sound : g.Sound) (known : operation.Known g) : (operation.run g).2.Sound := by
  have ascending := sound.ascending.run operation
  have size := (grows_run g operation).size_le
  have root : 0 < g.slots.size := Nat.zero_lt_of_lt sound.active
  cases operation with
  | add node => exact sound.of_samePlace ascending (samePlace_add g node) size
  | addUnder node parent =>
    exact sound.of_samePlace ascending (samePlace_addUnder g node parent) size
  | activate id => exact ⟨ascending, known, sound.saved⟩
  | push id =>
    refine ⟨ascending, known, fun other mem => ?_⟩
    rcases List.mem_cons.1 mem with rfl | mem
    · exact sound.active
    · exact sound.saved other mem
  | pop =>
    cases saved : g.saved with
    | nil =>
      have same : (Operation.pop.run g).2 = g := by
        unfold Operation.run pop
        rw [saved]
      rw [same]
      exact sound
    | cons id rest =>
      have same : (Operation.pop.run g).2 = { g with active := id, saved := rest } := by
        unfold Operation.run pop
        rw [saved]
      rw [same] at ascending ⊢
      refine ⟨ascending, sound.saved id (saved ▸ List.mem_cons_self), fun other mem => ?_⟩
      exact sound.saved other (saved ▸ List.mem_cons_of_mem _ mem)
  | reset => exact ⟨ascending, root, fun _ mem => absurd mem List.not_mem_nil⟩
  | beginEntry => exact ⟨ascending, root, fun _ mem => absurd mem List.not_mem_nil⟩
  | markIncomplete => exact ⟨ascending, sound.active, sound.saved⟩

/-- where nothing is saved, the step back fails and changes nothing -/
theorem run_pop_of_saved_nil (none : g.saved = []) :
    Operation.pop.run g = (.error .emptyStack, g) := by
  unfold Operation.run pop
  rw [none]

/-! ## runs -/

namespace Run

theorem sound (run : Run g operations h) (before : g.Sound) : h.Sound := by
  induction run with
  | done => exact before
  | step known _ ih => exact ih (before.run known)

theorem siblingsDiffer (run : Run g operations h) (before : g.Sound) (differ : g.SiblingsDiffer)
    (added : ∀ operation ∈ operations, ∀ node ∈ operation.added?, node.SiblingsDiffer) :
    h.SiblingsDiffer := by
  induction run with
  | done => exact differ
  | step known _ ih =>
    refine ih (before.run known) ?_ fun own mem => added own (List.mem_cons_of_mem _ mem)
    exact differ.run before.ascending (added _ List.mem_cons_self)

/-- **A generator keeps its order.**  Whatever is done with a new generator, as long as nodes are
made active that are there: the children of a node are there and come after it, so that no way
leads back to where it began and the tree below a node is made of the trees below its children; the
active node and the saved ones are there; if in every tree that was added the children of each node
are of different kinds, they are so in the tree of the decoder; and whatever is done next, the nodes
stay as they are, with more children at most behind the ones they have.  A step back with nothing
saved is a fault of the generator and leaves everything as it was. -/
theorem keeps_order (run : Run {} operations g) :
    (∀ id, ∀ child ∈ g.children id, id < child ∧ child < g.slots.size) ∧
    (∀ id, ¬ Relation.TransGen (fun id child => child ∈ g.children id) id id) ∧
    (∀ id, g.tree id = .mk ((g.info? id).getD default) ((g.children id).map g.tree)) ∧
    (g.active < g.slots.size ∧ ∀ id ∈ g.saved, id < g.slots.size) ∧
    ((∀ operation ∈ operations, ∀ node ∈ operation.added?, node.SiblingsDiffer) →
      g.node.SiblingsDiffer) ∧
    (∀ operation : Operation, Grows g (operation.run g).2) ∧
    (g.saved = [] → Operation.pop.run g = (.error .emptyStack, g) ∧
      Fault.emptyStack.ofGeneration = true ∧
      ∀ cursor : Cursor, Reading.leave.run { cursor, generator := some g } =
        (.error .emptyStack, { cursor, generator := some g })) := by
  have sound := run.sound sound_new
  refine ⟨sound.ascending, fun id way => ?_, sound.ascending.tree_eq, ⟨sound.active, sound.saved⟩,
    fun added => ?_, grows_run g, fun none => ?_⟩
  · exact absurd (sound.ascending.lt_of_transGen way) (Nat.lt_irrefl id)
  · have new : ({} : Generator).SiblingsDiffer := by
      intro id
      cases id with
      | zero => exact List.nodup_nil
      | succ id => exact List.nodup_nil
    exact (run.siblingsDiffer sound_new new added).node_siblingsDiffer sound.ascending
  · refine ⟨run_pop_of_saved_nil none, rfl, fun cursor => ?_⟩
    rw [Reading.run_leave_some]
    unfold pop
    rw [none]

/-! ### a leaf with two parents -/

/-- a leaf that hangs below two nodes, and one below none that is active for a while -/
def sharing : List Operation :=
  [.add (.mk { kind := .base "a" } [.mk { kind := .field "x" } []]),
    .add (.mk { kind := .base "b" } [.mk { kind := .field "x" } []]),
    .addUnder (.mk { kind := .field "leaf" } []) (.field "x"),
    .addUnder (.mk { kind := .field "lost" } []) (.field "nowhere"),
    .push 6, .add (.mk { kind := .prebuilt "lost too" } []), .pop, .activate 4,
    .markIncomplete, .beginEntry]

theorem keeps_order_sharing : ∃ g, Run {} sharing g ∧ g.slots.size = 8 ∧ g.orphaned = 2 ∧
    g.children 2 = [5] ∧ g.children 4 = [5] ∧
    (∀ id, ∀ child ∈ g.children id, id < child ∧ child < 8) ∧ g.node.SiblingsDiffer ∧
    Operation.pop.run g = (.error .emptyStack, g) := by
  have run : Run {} sharing (sharing.foldl (fun g own => (Operation.run g own).2) {}) := by
    refine .step trivial <| .step trivial <| .step trivial <| .step trivial <| .step ?_ <|
      .step trivial <| .step trivial <| .step ?_ <| .step trivial <| .step trivial <| .done _
    · show 6 < _
      decide +kernel
    · show 4 < _
      decide +kernel
  have size : (sharing.foldl (fun g own => (Operation.run g own).2) {}).slots.size = 8 := by
    decide +kernel
  obtain ⟨later, -, -, -, differ, -, pops⟩ := keeps_order run
  rw [size] at later
  refine ⟨_, run, size, by decide +kernel, by decide +kernel, by decide +kernel, later,
    differ (by decide +kernel), (pops (by decide +kernel)).1⟩

end Run

end Generator

end Baskets
