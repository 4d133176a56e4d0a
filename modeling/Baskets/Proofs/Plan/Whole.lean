import Baskets.Interpretation
import Baskets.Proofs.Plan.Growth
import Baskets.Proofs.Trace.Reading

/-!
# The tree after some entries

Entries are read one after the other into one generator, and each grows the tree that the ones
before it left.  What the headers pass over is settled by whichever came first at a node
(`firstLength`), in whatever entry.  As soon as an entry was complete the tree is the whole tree of
the type (`Plan.node_entries`).
-/

namespace Baskets

/-! ## the headers that came first -/

/-- the length of the first header of a node; 0 if there is none -/
def firstLength (marks : List Mark) (kind : NodeKind) : Nat :=
  ((marks.find? fun mark => mark.node = kind).map Mark.length).getD 0

@[simp] theorem firstLength_cons_self (mark : Mark) (marks : List Mark) :
    firstLength (mark :: marks) mark.node = mark.length := by
  unfold firstLength
  rw [List.find?_cons_of_pos (by simp)]
  rfl

theorem firstLength_append_of_notMem {front : List Mark} {kind : NodeKind}
    (none : ∀ mark ∈ front, mark.node ≠ kind) (marks : List Mark) :
    firstLength (front ++ marks) kind = firstLength marks kind := by
  have nowhere : front.find? (fun mark => mark.node = kind) = Option.none :=
    List.find?_eq_none.2 fun mark mem same => none mark mem (of_decide_eq_true same)
  unfold firstLength
  rw [List.find?_append, nowhere, Option.none_or]

/-- the first headers settle all -/
theorem settled_firstLength (present : List NodeKind) (marks : List Mark) :
    Settled (firstLength marks) present marks := by
  have behind : ∀ (rest front : List Mark) (present : List NodeKind),
      (∀ mark ∈ front, mark.node ∈ present) →
        Settled (firstLength (front ++ rest)) present rest := by
    intro rest
    induction rest with
    | nil => exact fun _ _ _ => trivial
    | cons mark rest ih =>
      intro front present seen
      refine ⟨?_, ?_⟩
      · by_cases there : mark.node ∈ present
        · exact .inl there
        · refine .inr ?_
          rw [firstLength_append_of_notMem, firstLength_cons_self]
          intro other mem same
          exact there (same ▸ seen other mem)
      · rw [List.append_cons]
        refine ih (front ++ [mark]) (mark.node :: present) fun other mem => ?_
        rcases List.mem_append.1 mem with mem | mem
        · exact List.mem_cons_of_mem _ (seen other mem)
        · rw [List.mem_singleton.1 mem]
          exact List.mem_cons_self
  exact behind marks [] present fun _ mem => absurd mem List.not_mem_nil

/-! ## entry after entry -/

/-- what entries with these traces leave of a generator -/
def Trace.entries (field : Option String) (ctx : Context) : List Trace → Generator → Generator
  | [], g => g
  | trace :: traces, g => entries field ctx traces (trace.contribute field ctx g.beginEntry)

/-- all bytes of entries, read one after the other into a generator, each with success -/
inductive Interpretation.ReadsInto (interpretation : Interpretation) :
    Generator → List Bytes → Generator → Prop where
  | nil {g : Generator} : ReadsInto interpretation g [] g
  | cons {g h k : Generator} {entry : Bytes} {entries : List Bytes} {value : Value} {cursor : Cursor}
    (first : interpretation.read entry (some g.beginEntry) =
      (.ok value, { cursor, generator := some h }))
    (rest : ReadsInto interpretation h entries k) : ReadsInto interpretation g (entry :: entries) k

namespace Interpretation

variable {interpretation : Interpretation}

/-- the context at the start of an entry -/
def context (interpretation : Interpretation) : Context := .ofOptions interpretation.options

/-- the trace of an entry -/
theorem read_traced {entry : Bytes} {g h : Generator} {value : Value} {cursor : Cursor}
    (read : interpretation.read entry (some g) = (.ok value, { cursor, generator := some h })) :
    ∃ trace : Trace, trace.Reads interpretation.registry true interpretation.type
      interpretation.context { data := entry } cursor ∧ value = trace.value ∧
        h = trace.contribute none interpretation.context g := by
  obtain ⟨trace, reads, same, grown⟩ := interpretation.registry.read_traced _ _ _ read
  exact ⟨trace, reads, same, Option.some.inj grown⟩

/-- a read that succeeds keeps a generator -/
theorem exists_of_isOk {entry : Bytes} {g : Generator}
    (ok : (interpretation.read entry (some g)).1.isOk = true) : ∃ value cursor h,
      interpretation.read entry (some g) = (.ok value, { cursor, generator := some h }) := by
  rcases read : interpretation.read entry (some g) with ⟨result, cursor, generator⟩
  rw [read] at ok
  cases result with
  | error fault => cases ok
  | ok value =>
    obtain ⟨trace, -, -, grown⟩ := interpretation.registry.read_traced _ _ _ read
    obtain rfl : generator = some (trace.contribute none interpretation.context g) := grown
    exact ⟨value, cursor, _, rfl⟩

theorem ReadsInto.cons_of_isOk {entry : Bytes} {entries : List Bytes} {g k : Generator}
    (ok : (interpretation.read entry (some g.beginEntry)).1.isOk = true)
    (rest : interpretation.ReadsInto
      ((interpretation.read entry (some g.beginEntry)).2.generator.getD g) entries k) :
    interpretation.ReadsInto g (entry :: entries) k := by
  obtain ⟨value, cursor, h, read⟩ := exists_of_isOk ok
  rw [read] at rest
  exact .cons read rest

theorem ReadsInto.single {entry : Bytes} {g : Generator}
    (ok : (interpretation.read entry (some g.beginEntry)).1.isOk = true) :
    interpretation.ReadsInto g [entry]
      ((interpretation.read entry (some g.beginEntry)).2.generator.getD g) :=
  .cons_of_isOk ok .nil

/-- the traces of entries -/
theorem ReadsInto.traced {g h : Generator} {entries : List Bytes}
    (reads : interpretation.ReadsInto g entries h) :
    ∃ traces : List Trace, traces.length = entries.length ∧
      (∀ trace ∈ traces, ∃ c d, trace.Reads interpretation.registry true interpretation.type
        interpretation.context c d) ∧ h = Trace.entries none interpretation.context traces g := by
  induction reads with
  | nil => exact ⟨[], rfl, fun _ mem => absurd mem List.not_mem_nil, rfl⟩
  | cons first rest ih =>
    obtain ⟨trace, firstReads, -, rfl⟩ := read_traced first
    obtain ⟨traces, length, others, rfl⟩ := ih
    refine ⟨trace :: traces, congrArg (· + 1) length, fun other mem => ?_, rfl⟩
    rcases List.mem_cons.1 mem with rfl | mem
    · exact ⟨_, _, firstReads⟩
    · exact others other mem

end Interpretation

/-! ## growing to the whole tree -/

namespace Plan

open Trace

variable {plan : Plan} {type : StreamType} {field : Option String} {ctx : Context}
  {traces : List Trace} {g : Generator} {present : List NodeKind}

/-- the tree of a type below the root -/
def whole (plan : Plan) (type : StreamType) (field : Option String) (ctx : Context) : Node :=
  .mk { kind := .top } [plan.node type field ctx]

theorem whole_nodup (regular : plan.registry.Regular)
    (apart : Place.Apart (plan.registry.places type ctx)) (field : Option String) :
    (plan.whole type field ctx).kinds.Nodup := by
  have inner := plan.kinds_nodup regular type ctx field apart
  have top : .top ∉ (plan.node type field ctx).kinds := by
    intro mem
    obtain ⟨place, -, named⟩ := (plan.kinds_along type ctx field).exists_of_mem mem
    have empty : [] = place.name.toList := named
    rw [Place.toList_name] at empty
    cases empty
  show (NodeKind.top :: ((plan.node type field ctx).kinds ++ [])).Nodup
  rw [List.append_nil]
  exact List.nodup_cons.2 ⟨top, inner⟩

/-- a generator between two entries: at the root, with a tidy part of the tree of the type -/
structure Between (plan : Plan) (type : StreamType) (field : Option String) (ctx : Context)
    (g : Generator) (present : List NodeKind) : Prop where
  stands : g.beginEntry.Stands [] { kind := .top } [plan.node type field ctx] present
  tidy : (plan.node type field ctx).Tidy present ∨ (plan.node type field ctx).Absent present

/-- an entry begins at the root -/
theorem stands_beginEntry {info : NodeInfo} {children : List Node}
    (stands : g.Stands [] info children present) :
    g.beginEntry.Stands [] info children present := by
  refine ⟨stands.shows.of_slots_eq rfl, stands.once, stands.path, stands.here, .root, ?_⟩
  obtain ⟨tree, root, holds, shown⟩ := stands.shows
  have is := holds.hasKind info.kind
  have kind : tree.kind = info.kind := by
    rw [← Numbered.kind_node, shown]
    rfl
  rw [root] at is
  exact is.trans (decide_eq_true kind)

/-- a fresh generator has the root alone -/
theorem between_fresh (once : (plan.whole type field ctx).kinds.Nodup) :
    plan.Between type field ctx {} [.top] := by
  have absent : (plan.node type field ctx).Absent [.top] := by
    intro kind mem there
    rw [List.mem_singleton.1 there] at mem
    exact (List.nodup_cons.1 once).1 (List.mem_append_left _ mem)
  have shows : Generator.Shows {} (plan.whole type field ctx) [.top] := by
    refine ⟨.mk 0 { kind := .top } [], rfl, fun part inside => ?_, ?_⟩
    · rw [List.mem_singleton.1 inside]
      exact ⟨rfl, fun _ mem => absurd mem List.not_mem_nil⟩
    · show Node.mk _ [] = Node.mk _ (Node.restrictAll _ [plan.node type field ctx])
      rw [Node.restrictAll_eq_nil]
      intro kind mem
      rw [Node.kindsAll, Node.kindsAll, List.append_nil] at mem
      exact absent kind mem
  refine ⟨⟨shows, once, fun _ mem => absurd mem List.not_mem_nil, List.mem_cons_self, .root, ?_⟩,
    .inr absent⟩
  rfl

/-- an entry leaves a generator between two entries -/
theorem Between.entry (regular : plan.registry.Regular) {trace : Trace} {c d : Cursor}
    (between : plan.Between type field ctx g present)
    (reads : trace.Reads plan.registry true type ctx c d)
    (settled : Settled plan.length present (trace.marks ctx)) :
    ∃ later, Grown (plan.node type field ctx).kinds (trace.marks ctx) present later ∧
      (trace.complete = true → (plan.node type field ctx).kinds ⊆ later) ∧
      plan.Between type field ctx (trace.contribute field ctx g.beginEntry) later := by
  have same := Node.mk_info_children (plan.node type field ctx)
  have stands : g.beginEntry.Stands [] { kind := .top }
      ([] ++ .mk (plan.node type field ctx).info (plan.node type field ctx).children :: [])
      present := by
    rw [same]
    exact between.stands
  have tidy : (plan.node type field ctx).Tidy present ∨
      (plan.node type field ctx).info = (plan.node type field ctx).info ∧
        (plan.node type field ctx).Absent present ∧ Node.AllAbsent present [] :=
    between.tidy.imp_right fun absent => ⟨rfl, absent, fun _ mem => absurd mem List.not_mem_nil⟩
  obtain ⟨later, grown, tidyLater, full, standsLater⟩ :=
    plan.grows regular type ctx field trace c d reads rfl stands tidy settled
  rw [same] at standsLater
  exact ⟨later, grown, full, stands_beginEntry standsLater, .inl tidyLater⟩

/-- entries leave a generator between two entries, with the whole tree if the last was complete -/
theorem Between.entries (regular : plan.registry.Regular)
    (between : plan.Between type field ctx g present)
    (reads : ∀ trace ∈ traces, ∃ c d, trace.Reads plan.registry true type ctx c d)
    (settled : Settled plan.length present (marksAll ctx traces)) :
    ∃ later, plan.Between type field ctx (Trace.entries field ctx traces g) later ∧
      ∀ last ∈ traces.getLast?, last.complete = true →
        (plan.node type field ctx).kinds ⊆ later := by
  induction traces generalizing g present with
  | nil => exact ⟨present, between, fun _ mem => nomatch mem⟩
  | cons trace traces ih =>
    obtain ⟨c, d, first⟩ := reads trace List.mem_cons_self
    obtain ⟨later, grown, full, betweenLater⟩ :=
      between.entry regular first settled.append_left
    cases traces with
    | nil =>
      refine ⟨later, betweenLater, fun last mem => ?_⟩
      rw [List.getLast?_singleton, Option.mem_some_iff] at mem
      rw [← mem]
      exact full
    | cons next traces =>
      have others := fun other mem => reads other (List.mem_cons_of_mem trace mem)
      obtain ⟨last, betweenLast, fullLast⟩ :=
        ih betweenLater others (settled.append_right grown.sub grown.marked)
      rw [List.getLast?_cons_cons]
      exact ⟨last, betweenLast, fullLast⟩

/-- a generator between two entries has what has come up of the whole tree -/
theorem Between.node_restrict (between : plan.Between type field ctx g present) :
    g.node = (plan.whole type field ctx).restrict present := by
  have shows : g.Shows (plan.whole type field ctx) present :=
    between.stands.shows.of_slots_eq rfl
  exact shows.node

/-- a generator with all nodes of the type has the whole tree -/
theorem Between.node (between : plan.Between type field ctx g present)
    (full : (plan.node type field ctx).kinds ⊆ present) :
    g.node = plan.whole type field ctx := by
  rw [between.node_restrict]
  refine Node.restrict_of_subset _ ?_
  show NodeKind.top :: ((plan.node type field ctx).kinds ++ []) ⊆ present
  rw [List.append_nil]
  exact List.cons_subset.2 ⟨between.stands.here, full⟩

/-- the plan of a registry, with the headers that came first -/
def ofMarks (registry : Registry) (marks : List Mark) : Plan where
  registry
  length := firstLength marks

/-- whether an entry showed everything is told by its trace -/
theorem incomplete_entry (trace : Trace) (field : Option String) (ctx : Context) (g : Generator) :
    (trace.contribute field ctx g.beginEntry).incomplete = !trace.complete := by
  rw [incomplete_contribute]
  exact Bool.false_or _

/-- a generator that was complete at the end of an entry says so -/
theorem complete_of_entries {last : Trace} (mem : last ∈ traces.getLast?)
    (complete : (Trace.entries field ctx traces g).incomplete = false) : last.complete = true := by
  induction traces generalizing g with
  | nil => cases mem
  | cons trace traces ih =>
    cases traces with
    | nil =>
      rw [List.getLast?_singleton, Option.mem_some_iff] at mem
      subst mem
      have seen := (incomplete_entry trace field ctx g).symm.trans complete
      rwa [Bool.not_eq_false'] at seen
    | cons next traces =>
      rw [List.getLast?_cons_cons] at mem
      exact ih mem complete

/-- entries leave a fresh generator with a part of the tree of the type -/
theorem between_entries {registry : Registry} (regular : registry.Regular)
    (apart : Place.Apart (registry.places type ctx)) (field : Option String)
    (reads : ∀ trace ∈ traces, ∃ c d, trace.Reads registry true type ctx c d) :
    ∃ later, (ofMarks registry (marksAll ctx traces)).Between type field ctx
        (Trace.entries field ctx traces {}) later ∧
      ∀ last ∈ traces.getLast?, last.complete = true →
        ((ofMarks registry (marksAll ctx traces)).node type field ctx).kinds ⊆ later := by
  let plan := ofMarks registry (marksAll ctx traces)
  have once : (plan.whole type field ctx).kinds.Nodup := plan.whole_nodup regular apart field
  exact (between_fresh once).entries regular reads
    (settled_firstLength [.top] (marksAll ctx traces))

/-- **After an entry that was complete, a generator has the whole tree of the type.** -/
theorem node_entries {registry : Registry} (regular : registry.Regular)
    (apart : Place.Apart (registry.places type ctx)) (field : Option String)
    (reads : ∀ trace ∈ traces, ∃ c d, trace.Reads registry true type ctx c d)
    (some_ : traces ≠ []) (complete : (Trace.entries field ctx traces {}).incomplete = false) :
    (Trace.entries field ctx traces {}).node =
      (ofMarks registry (marksAll ctx traces)).whole type field ctx := by
  obtain ⟨later, between, full⟩ := between_entries regular apart field reads
  have mem := List.getLast?_eq_some_getLast some_
  exact between.node (full _ mem (complete_of_entries mem complete))

/-- after one entry, with the lengths of its own headers -/
theorem node_entry {registry : Registry} (regular : registry.Regular)
    (apart : Place.Apart (registry.places type ctx)) (field : Option String) {trace : Trace}
    {c d : Cursor} (reads : trace.Reads registry true type ctx c d)
    (complete : (trace.contribute field ctx (Generator.beginEntry {})).incomplete = false) :
    (trace.contribute field ctx (Generator.beginEntry {})).node =
      (ofMarks registry (trace.marks ctx)).whole type field ctx := by
  have whole := node_entries regular apart field (List.forall_mem_singleton.2 ⟨c, d, reads⟩)
    (List.cons_ne_nil trace []) complete
  rwa [marksAll, marksAll, List.append_nil] at whole

end Plan

end Baskets
