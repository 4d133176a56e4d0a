import Baskets.Proofs.Discovery
import Baskets.Proofs.Machine.Model
import Baskets.Proofs.Reading.Lineage
import Baskets.Proofs.Trace.Determined

/-!
# Earlier and later entries

A generator goes from entry to entry, and what it comes to does not depend on the way.  Earlier
entries leave nothing behind but nodes that a complete entry makes as well, if headers at one
position are of one length throughout; and after an entry that was complete, later ones add nothing,
whatever their bytes are and wherever they stop (`Registry.model_settled`).
-/

namespace Baskets

/-! ## complete traces show every header -/

namespace Trace

variable {registry : Registry} {element : StreamType} {ctx : Context} {c d : Cursor}
  {items : List Trace} {parts : List Part} {header : List String × NodeKind}

theorem ReadsAll.exists_mark (all : ReadsAll registry true element ctx c items d)
    (some_ : items ≠ []) (complete : completeAll items = true)
    (one : ∀ {item : Trace} {c d : Cursor}, item.Reads registry true element ctx c d →
      item.complete = true → ∃ mark ∈ item.marks ctx, mark.node = header.2) :
    ∃ mark ∈ marksAll ctx items, mark.node = header.2 := by
  cases all with
  | nil => exact absurd rfl some_
  | cons first rest =>
    obtain ⟨mark, there, same⟩ := one first (Bool.and_eq_true_iff.1 complete).1
    exact ⟨mark, List.mem_append_left _ there, same⟩

/-- numbers have no headers, and every other complete list has an element -/
theorem ReadsAll.exists_mark_of_list (all : ReadsAll registry true element ctx c items d)
    (complete : (element.primitive?.isSome || (!items.isEmpty && completeAll items)) = true)
    (mem : header ∈ registry.headers element ctx)
    (one : ∀ {item : Trace} {c d : Cursor}, item.Reads registry true element ctx c d →
      item.complete = true → ∃ mark ∈ item.marks ctx, mark.node = header.2) :
    ∃ mark ∈ marksAll ctx items, mark.node = header.2 := by
  cases kind : element.primitive? with
  | some p =>
    rw [StreamType.eq_primitive kind, Registry.headers_simple rfl] at mem
    cases mem
  | none =>
    rw [kind] at complete
    obtain ⟨some_, each⟩ := Bool.and_eq_true_iff.1 complete
    refine all.exists_mark (fun none => ?_) each one
    rw [none] at some_
    cases some_

theorem ReadsParts.exists_mark (all : ReadsParts registry true ctx parts c items d)
    (complete : completeParts parts items = true) {part : Part} (mem : part ∈ parts)
    (one : ∀ {item : Trace} {c d : Cursor},
      item.Reads registry true part.type (part.context ctx) c d → item.complete = true →
        ∃ mark ∈ item.marks (part.context ctx), mark.node = header.2) :
    ∃ mark ∈ marksParts ctx parts items, mark.node = header.2 := by
  induction parts generalizing items c with
  | nil => cases mem
  | cons first parts ih =>
    cases all with
    | cons head tail =>
      obtain ⟨own, others⟩ := Bool.and_eq_true_iff.1 complete
      rcases List.mem_cons.1 mem with rfl | mem
      · obtain ⟨mark, there, same⟩ := one head own
        exact ⟨mark, List.mem_append_left _ there, same⟩
      · obtain ⟨mark, there, same⟩ := ih tail others mem
        exact ⟨mark, List.mem_append_right _ there, same⟩

/-- a complete trace has a header at every node of the type that passes over one -/
theorem exists_mark (regular : registry.Regular) (type : StreamType) (ctx : Context) {trace : Trace}
    {c d : Cursor} (reads : trace.Reads registry true type ctx c d)
    (complete : trace.complete = true) :
    ∀ header ∈ registry.headers type ctx, ∃ mark ∈ trace.marks ctx, mark.node = header.2 := by
  induction type, ctx using registry.walk generalizing trace c d with
  | vector element ctx ih =>
    rw [Registry.headers_vector]
    cases reads with
    | vector before count all =>
      intro header mem
      rcases List.mem_cons.1 mem with rfl | mem
      · exact ⟨_, List.mem_cons_self, rfl⟩
      · obtain ⟨mark, there, same⟩ := all.exists_mark_of_list complete mem
          fun reads full => ih reads full header mem
        exact ⟨mark, List.mem_cons_of_mem _ there, same⟩
  | array element count ctx ih =>
    rw [Registry.headers_array]
    cases reads with
    | array length all =>
      intro header mem
      exact all.exists_mark_of_list complete mem fun reads full => ih reads full header mem
  | map key value ctx keys values =>
    rw [Registry.headers_map]
    cases reads with
    | map before count length allKeys allValues =>
      obtain ⟨some_, both⟩ := Bool.and_eq_true_iff.1 complete
      obtain ⟨eachKey, eachValue⟩ := Bool.and_eq_true_iff.1 both
      intro header mem
      rcases List.mem_cons.1 mem with rfl | mem
      · exact ⟨_, List.mem_cons_self, rfl⟩
      rcases List.mem_append.1 mem with mem | mem
      · obtain ⟨mark, there, same⟩ := allKeys.exists_mark
          (fun none => by rw [none] at some_; cases some_) eachKey
          fun reads full => keys reads full header mem
        exact ⟨mark, List.mem_cons_of_mem _ (List.mem_append_left _ there), same⟩
      · obtain ⟨mark, there, same⟩ := allValues.exists_mark
          (fun none => by
            rw [none] at length
            rw [List.length_eq_zero_iff.1 length.symm] at some_
            cases some_) eachValue fun reads full => values reads full header mem
        exact ⟨mark, List.mem_cons_of_mem _ (List.mem_append_right _ there), same⟩
  | named name ctx ih =>
    rw [Registry.headers_named]
    cases reads with
    | @object _ _ _ _ _ header latest layout parts outside known takes chosen all =>
      obtain rfl : layout = latest := chosen.trans (regular.chosen known header.version)
      rw [registry.partsIn_eq (outside rfl) known] at ih ⊢
      intro own mem
      rcases List.mem_cons.1 mem with rfl | mem
      · exact ⟨_, List.mem_cons_self, rfl⟩
      · obtain ⟨part, there, mem⟩ := List.mem_flatMap.1 mem
        obtain ⟨mark, inParts, same⟩ := all.exists_mark complete there
          fun reads full => ih part there reads full own mem
        exact ⟨mark, List.mem_cons_of_mem _ inParts, same⟩
  | _ =>
    rw [Registry.headers_simple rfl, ← map_marks_simple rfl reads]
    exact List.forall_mem_map.2 fun mark there => ⟨mark, there, rfl⟩

end Trace

/-! ## entries and their traces -/

namespace Interpretation

variable {interpretation : Interpretation} {g h k : Generator} {entries others : List Bytes}

/-- the trace of the read of an entry with a generator -/
def TraceOf (interpretation : Interpretation) (entry : Bytes) (trace : Trace) : Prop :=
  ∃ cursor, trace.Reads interpretation.registry true interpretation.type interpretation.context
    { data := entry } cursor

theorem ReadsInto.split (reads : interpretation.ReadsInto g (entries ++ others) k) :
    ∃ h, interpretation.ReadsInto g entries h ∧ interpretation.ReadsInto h others k := by
  induction entries generalizing g with
  | nil => exact ⟨g, .nil, reads⟩
  | cons entry entries ih =>
    cases reads with
    | cons first rest =>
      obtain ⟨h, before, after⟩ := ih rest
      exact ⟨h, .cons first before, after⟩

theorem ReadsInto.append (first : interpretation.ReadsInto g entries h)
    (second : interpretation.ReadsInto h others k) :
    interpretation.ReadsInto g (entries ++ others) k := by
  induction first with
  | nil => exact second
  | cons read rest ih => exact .cons read (ih second)

/-- the read of one entry -/
theorem ReadsInto.read {entry : Bytes} (reads : interpretation.ReadsInto g [entry] h) :
    ∃ value cursor, interpretation.read entry (some g.beginEntry) =
      (.ok value, { cursor, generator := some h }) := by
  cases reads with
  | cons first rest =>
    cases rest
    exact ⟨_, _, first⟩

/-- entries with known traces leave what the traces leave -/
theorem ReadsInto.eq_entries (regular : interpretation.registry.Regular) {traces : List Trace}
    (reads : interpretation.ReadsInto g entries h)
    (traced : List.Forall₂ interpretation.TraceOf entries traces) :
    h = Trace.entries none interpretation.context traces g := by
  induction reads generalizing traces with
  | nil =>
    cases traced
    rfl
  | cons first rest ih =>
    cases traced with
    | cons head tail =>
      obtain ⟨_, own⟩ := head
      obtain ⟨trace, reads, -, rfl⟩ := read_traced first
      obtain ⟨rfl, -⟩ := Trace.Reads.unique regular _ _ own reads
      exact ih tail

end Interpretation

/-! ## courses of reads -/

section
variable (registry : Registry) (type : StreamType) (field : Option String) (ctx : Context)

/-- the second generator comes of the first by reads of the type from anywhere, each begun anew
wherever the one before stopped, with success or not -/
inductive Registry.Course : Generator → Generator → Prop where
  | done {g : Generator} : Course g g
  | read {g h k : Generator} {c d : Cursor} {result : Except Fault Value}
    (first : (registry.read type field ctx).run { cursor := c, generator := some g.beginEntry } =
      (result, { cursor := d, generator := some h }))
    (rest : Course h k) : Course g k

variable {registry type field ctx} {g h k : Generator}

theorem Registry.Course.snoc (course : registry.Course type field ctx g h) {c d : Cursor}
    {result : Except Fault Value}
    (last : (registry.read type field ctx).run { cursor := c, generator := some h.beginEntry } =
      (result, { cursor := d, generator := some k })) : registry.Course type field ctx g k := by
  induction course with
  | done => exact .read last .done
  | read first rest ih => exact .read first (ih last)

end

namespace Plan

open Generator (Develops)

variable {plan : Plan} {type : StreamType} {field : Option String} {ctx : Context}
  {g h k : Generator}

/-- a read from the root develops a generator, and makes it full if it was complete -/
theorem ending_of_read (regular : plan.registry.Regular)
    (apart : Place.Apart (plan.registry.places type ctx))
    (obeys : g.Obeys (plan.lineage regular apart field)) {c d : Cursor} {result : Except Fault Value}
    (read : (plan.registry.read type field ctx).run { cursor := c, generator := some g.beginEntry } =
      (result, { cursor := d, generator := some h })) :
    Develops (plan.lineage regular apart field) g h ∧
      (result.isOk = true → h.incomplete = false → h.Full (plan.lineage regular apart field)) := by
  obtain ⟨begun, top⟩ := obeys.beginEntry
  obtain ⟨own, e, each⟩ := plan.steady_read regular apart field c
  obtain ⟨last, ran, ending⟩ := each g.beginEntry begun.obeys top
  rw [read] at ran
  cases ran
  refine ⟨begun.trans ending.develops, fun ok complete link mem => ?_⟩
  have there : link.2 ∈ (plan.node type field ctx).kinds := by
    rw [← Node.map_snd_links .top]
    exact List.mem_map_of_mem mem
  cases result with
  | error fault => cases ok
  | ok value => exact (ending.shown value rfl complete).2 link.2 there

theorem develops_of_course (regular : plan.registry.Regular)
    (apart : Place.Apart (plan.registry.places type ctx))
    (course : plan.registry.Course type field ctx g h)
    (obeys : g.Obeys (plan.lineage regular apart field)) :
    Develops (plan.lineage regular apart field) g h := by
  induction course with
  | done => exact .refl obeys
  | read first rest ih =>
    have one := (ending_of_read regular apart obeys first).1
    exact one.trans (ih one.obeys)

/-- wherever a read of the type begins, a generator comes out of it -/
theorem exists_read (regular : plan.registry.Regular)
    (apart : Place.Apart (plan.registry.places type ctx))
    (obeys : g.Obeys (plan.lineage regular apart field)) (c : Cursor) :
    ∃ result d h, (plan.registry.read type field ctx).run
      { cursor := c, generator := some g.beginEntry } =
        (result, { cursor := d, generator := some h }) := by
  obtain ⟨begun, top⟩ := obeys.beginEntry
  obtain ⟨result, d, each⟩ := plan.steady_read regular apart field c
  obtain ⟨h, ran, -⟩ := each g.beginEntry begun.obeys top
  exact ⟨result, d, h, ran⟩

end Plan

namespace Interpretation

variable {interpretation : Interpretation} {g h : Generator} {entries : List Bytes}

theorem ReadsInto.course (reads : interpretation.ReadsInto g entries h) :
    interpretation.registry.Course interpretation.type none interpretation.context g h := by
  induction reads with
  | nil => exact .done
  | cons first rest ih => exact .read first ih

/-- what can be read after other entries can be read by itself -/
theorem ReadsInto.alone (regular : interpretation.registry.Regular)
    (apart : Place.Apart (interpretation.registry.places interpretation.type interpretation.context))
    {entry : Bytes} (reads : interpretation.ReadsInto {} (entries ++ [entry]) g) :
    ∃ h, interpretation.ReadsInto {} [entry] h := by
  let plan : Plan := { registry := interpretation.registry, length := fun _ => 0 }
  obtain ⟨m, before, ending⟩ := reads.split
  cases ending with
  | cons read rest =>
    have fresh := Generator.obeys_new (plan.lineage regular apart none)
    have obeys := (Plan.develops_of_course regular apart before.course fresh).obeys
    obtain ⟨result, d, each⟩ := plan.steady_read regular apart none { data := entry }
    obtain ⟨last, ran, -⟩ := each m.beginEntry obeys.beginEntry.1.obeys obeys.beginEntry.2
    obtain ⟨h, ranFresh, -⟩ := each _ fresh.beginEntry.1.obeys fresh.beginEntry.2
    cases read.symm.trans ran
    exact ⟨h, .cons ranFresh .nil⟩

end Interpretation

/-! ## the model -/

/-- where headers at one position are of one length, the headers of some of the entries settle the
lengths that those of all of them do -/
theorem Mark.Uniform.firstLength_eq {registry : Registry} {type : StreamType} {ctx : Context}
    {marks others : List Mark} (uniform : Uniform marks)
    (apart : Place.Apart (registry.places type ctx))
    (within : ∀ mark ∈ marks, mark.Within registry type ctx) (sub : others ⊆ marks) {mark : Mark}
    (mem : mark ∈ others) : firstLength marks mark.node = firstLength others mark.node := by
  have some_ : Uniform others := fun first here second there =>
    uniform first (sub here) second (sub there)
  have all := uniform.agree apart within mark (sub mem)
  have own := some_.agree apart (fun other there => within other (sub there)) mark mem
  exact all.symm.trans own

theorem Generator.model_congr {g h : Generator} (same : g.node = h.node) : g.model = h.model :=
  congrArg Model.ofNode same

namespace Interpretation

variable {interpretation : Interpretation} {g h k : Generator} {entries : List Bytes}
  {traces : List Trace} {trace : Trace}

theorem TraceOf.reads {entry : Bytes} (traced : interpretation.TraceOf entry trace) :
    ∃ c d, trace.Reads interpretation.registry true interpretation.type interpretation.context c d :=
  ⟨_, traced⟩

theorem reads_of_traced (traced : List.Forall₂ interpretation.TraceOf entries traces) :
    ∀ trace ∈ traces, ∃ c d, trace.Reads interpretation.registry true interpretation.type
      interpretation.context c d := by
  induction traced with
  | nil => exact fun _ mem => nomatch mem
  | cons first rest ih => exact List.forall_mem_cons.2 ⟨first.reads, ih⟩

/-- a complete entry makes one tree, whatever entries came before it -/
theorem node_after_entries (regular : interpretation.registry.Regular)
    (apart : Place.Apart (interpretation.registry.places interpretation.type interpretation.context))
    (reads : ∀ other ∈ traces ++ [trace], ∃ c d, other.Reads interpretation.registry true
      interpretation.type interpretation.context c d)
    (complete : trace.complete = true)
    (uniform : Mark.Uniform (Trace.marksAll interpretation.context (traces ++ [trace]))) :
    (Plan.ofMarks interpretation.registry
        (Trace.marksAll interpretation.context (traces ++ [trace]))).whole interpretation.type none
          interpretation.context =
      (Plan.ofMarks interpretation.registry (Trace.marksAll interpretation.context [trace])).whole
        interpretation.type none interpretation.context := by
  rw [Plan.whole_ofMarks_eq_iff]
  intro header mem
  obtain ⟨c, d, own⟩ := reads trace (List.mem_append_right _ List.mem_cons_self)
  -- the last entry is complete, so that it has a header of its own at every position
  obtain ⟨mark, there, same⟩ := trace.exists_mark regular _ _ own complete header mem
  rw [← same]
  refine uniform.firstLength_eq apart (fun other inside => ?_) (fun other inside => ?_)
    (List.mem_append_left _ there)
  · exact Registry.headers_within _ _ _ (Trace.marksAll_headers regular reads other inside)
  · rw [Trace.marksAll_eq] at inside ⊢
    rw [List.flatMap_append]
    exact List.mem_append_right _ inside

/-- **Earlier entries leave no trace.**  Where headers at one position are of one length, the model
after a complete entry is the model of this entry alone. -/
theorem model_of_last (regular : interpretation.registry.Regular)
    (apart : Place.Apart (interpretation.registry.places interpretation.type interpretation.context))
    {last : Bytes} (reads : interpretation.ReadsInto {} (entries ++ [last]) g)
    (complete : g.incomplete = false)
    (traced : List.Forall₂ interpretation.TraceOf entries traces)
    (own : interpretation.TraceOf last trace)
    (uniform : Mark.Uniform (Trace.marksAll interpretation.context (traces ++ [trace]))) :
    ∃ h model, interpretation.ReadsInto {} [last] h ∧ h.incomplete = false ∧
      g.model = .ok model ∧ h.model = .ok model := by
  have all : List.Forall₂ interpretation.TraceOf (entries ++ [last]) (traces ++ [trace]) :=
    List.rel_append traced (.cons own .nil)
  have single : List.Forall₂ interpretation.TraceOf [last] [trace] := .cons own .nil
  obtain ⟨h, alone⟩ := reads.alone regular apart
  obtain rfl := reads.eq_entries regular all
  obtain rfl := alone.eq_entries regular single
  have full : trace.complete = true :=
    Plan.complete_of_entries (by rw [List.getLast?_concat]; rfl) complete
  have completeAlone : (Trace.entries none interpretation.context [trace] {}).incomplete = false := by
    have seen := Plan.incomplete_entry trace none interpretation.context {}
    rwa [full] at seen
  obtain ⟨model, made, node, -⟩ := model_of_traces regular apart (reads_of_traced all)
    (List.append_ne_nil_of_right_ne_nil _ (List.cons_ne_nil _ _)) complete
  obtain ⟨modelAlone, madeAlone, nodeAlone, -⟩ := model_of_traces regular apart
    (reads_of_traced single) (List.cons_ne_nil _ _) completeAlone
  refine ⟨_, model, alone, completeAlone, made, ?_⟩
  rw [← made]
  refine Generator.model_congr ?_
  rw [← (Generator.model_eq_ok made).2, ← (Generator.model_eq_ok madeAlone).2, node, nodeAlone]
  exact (node_after_entries regular apart (reads_of_traced all) full uniform).symm

end Interpretation

namespace Plan

open Generator (Develops)

variable {plan : Plan} {type : StreamType} {field : Option String} {ctx : Context}
  {g h k : Generator}

/-- after a read that was complete, no further read changes the tree -/
theorem node_of_course (regular : plan.registry.Regular)
    (apart : Place.Apart (plan.registry.places type ctx))
    (before : plan.registry.Course type field ctx {} g) {c d : Cursor} {value : Value}
    (read : (plan.registry.read type field ctx).run { cursor := c, generator := some g.beginEntry } =
      (.ok value, { cursor := d, generator := some h }))
    (complete : h.incomplete = false) (after : plan.registry.Course type field ctx h k)
    (e : Cursor) :
    ∃ result f last, (plan.registry.read type field ctx).run
        { cursor := e, generator := some k.beginEntry } =
          (result, { cursor := f, generator := some last }) ∧ last.node = h.node := by
  have fresh := Generator.obeys_new (plan.lineage regular apart field)
  have obeys := (develops_of_course regular apart before fresh).obeys
  obtain ⟨develops, full⟩ := ending_of_read regular apart obeys read
  have there := (develops_of_course regular apart after develops.obeys).obeys
  obtain ⟨result, f, last, ran⟩ := exists_read regular apart there e
  have later := develops_of_course regular apart (after.snoc ran) develops.obeys
  exact ⟨result, f, last, ran, (later.still (full rfl complete)).node_eq develops.obeys⟩

end Plan

/-- **Earlier entries leave no trace, later ones add nothing.**  Take one layout of each class, and
places with keys of their own.  After entries that end in a complete one, with headers of one length
at each position, the model is the model of the last entry alone.  And once a read was complete, the
tree and the model stay through all further reads of the type, whatever bytes they are of and whether
they succeed or not. -/
theorem Registry.model_settled {registry : Registry} (regular : registry.Regular)
    (type : StreamType) :
    (∀ (options : ReadOptions) (entries : List Bytes) (last : Bytes) (traces : List Trace)
        (trace : Trace) (g : Generator),
      Place.Apart (registry.places type (.ofOptions options)) →
      Interpretation.ReadsInto { type, registry, options } {} (entries ++ [last]) g →
      g.incomplete = false →
      List.Forall₂ (Interpretation.TraceOf { type, registry, options }) entries traces →
      Interpretation.TraceOf { type, registry, options } last trace →
      Mark.Uniform (Trace.marksAll (.ofOptions options) (traces ++ [trace])) →
      ∃ h model, Interpretation.ReadsInto { type, registry, options } {} [last] h ∧
        h.incomplete = false ∧ g.model = .ok model ∧ h.model = .ok model) ∧
    ∀ (field : Option String) (ctx : Context) (g h k : Generator) (c d : Cursor) (value : Value),
      Place.Apart (registry.places type ctx) →
      registry.Course type field ctx {} g →
      (registry.read type field ctx).run { cursor := c, generator := some g.beginEntry } =
        (.ok value, { cursor := d, generator := some h }) →
      h.incomplete = false → registry.Course type field ctx h k →
      ∀ e, ∃ result f last, (registry.read type field ctx).run
          { cursor := e, generator := some k.beginEntry } =
            (result, { cursor := f, generator := some last }) ∧
          last.node = h.node ∧ last.model = h.model := by
  refine ⟨fun options entries last traces trace g apart reads complete traced own uniform => ?_,
    fun field ctx g h k c d value apart before read complete after e => ?_⟩
  · exact Interpretation.model_of_last regular apart reads complete traced own uniform
  · let plan : Plan := { registry, length := fun _ => 0 }
    obtain ⟨result, f, last, ran, same⟩ :=
      plan.node_of_course regular apart before read complete after e
    exact ⟨result, f, last, ran, same, Generator.model_congr same⟩

/-! ### hits by name -/

/-- the energy of a hit -/
def hitLayout : Layout :=
  { name := "Hit", version := 1, bases := [], members := [⟨"energy", .primitive .uint8⟩] }

/-- lists of hits, each under a name -/
def hitsByName : Interpretation where
  type := .map (.text .tstring) (.vector (.named "Hit"))
  registry := { layouts := [hitLayout] }

/-- the name `a`, with no hit -/
def noHits : Bytes :=
  #[0x40, 0, 0, 18, 0x40, 9, 0, 0, 0, 0, 0, 0, 0, 0, 0, 1, 1, 97, 0, 0, 0, 0]

/-- the name `a`, with a hit of energy 7 -/
def oneHit : Bytes :=
  #[0x40, 0, 0, 25, 0x40, 9, 0, 0, 0, 0, 0, 0, 0, 0, 0, 1, 1, 97, 0, 0, 0, 1, 0x40, 0, 0, 3, 0, 1, 7]

def hitTrace : Trace := .object "Hit" 6 hitLayout false [.number .uint8 (.uint 7)]

/-- the trace of one name and the hits under it -/
def nameTrace (hits : List Trace) : Trace :=
  .map 12 [.text .tstring 0 #[97]] [.vector (.named "Hit") 0 hits]

theorem regular_hitsByName : hitsByName.registry.Regular := by
  refine ⟨?_, ?_, ?_, ?_, ?_⟩ <;> decide

theorem places_hitsByName : hitsByName.registry.places hitsByName.type hitsByName.context =
    [([], ""), (["@keys"], ""), (["@keys"], "chars"), (["@values"], ""),
      (["@values", "@items"], "dispatch"), (["@values", "@items"], "model"),
      (["@values", "@items"], ""), (["@values", "@items", "energy"], "base"),
      (["@values", "@items", "energy"], "")] := by
  have parts : hitsByName.registry.partsIn [] "Hit" =
      [.member ⟨"energy", .primitive .uint8⟩] := by
    decide
  show hitsByName.registry.places (.map (.text .tstring) (.vector (.named "Hit")))
    hitsByName.context = _
  have crumbs : hitsByName.context.mapValues.items.breadcrumbs = [] := rfl
  rw [Registry.places_map, Registry.places_vector, Registry.places_named, crumbs, parts]
  simp [Registry.partPlaces, Registry.places, Registry.gather, StreamType.places, StreamType.roles,
    Part.type, Part.context, Context.inMember, Context.items, Context.mapKeys, Context.mapValues,
    Context.inSlot, Context.withHeader, Context.inClass, Interpretation.context, Context.ofOptions]

theorem apart_hitsByName :
    Place.Apart (hitsByName.registry.places hitsByName.type hitsByName.context) := by
  rw [places_hitsByName]
  decide +kernel

/-- an entry with the name `a` and the hits under it -/
theorem traceOf_name {entry : Bytes} {header : VersionHeader} {hits : List Trace} {d : Cursor}
    (takes : Scan.versionHeader.Takes ⟨entry, 0⟩ header ⟨entry, 6⟩)
    (further : (Scan.skip 6).Takes ⟨entry, 6⟩ () ⟨entry, 12⟩)
    (count : (Scan.unsigned 4).Takes ⟨entry, 12⟩ 1 ⟨entry, 16⟩)
    (name : Scan.characters.Takes ⟨entry, 16⟩ #[97] ⟨entry, 18⟩)
    (length : (Scan.unsigned 4).Takes ⟨entry, 18⟩ hits.length ⟨entry, 22⟩)
    (all : Trace.ReadsAll hitsByName.registry true (.named "Hit")
      hitsByName.context.mapValues.items ⟨entry, 22⟩ hits d) :
    hitsByName.TraceOf entry (nameTrace hits) := by
  have before : MapHeaderBefore hitsByName.context ⟨entry, 0⟩ 12 ⟨entry, 12⟩ :=
    .present rfl takes further
  exact ⟨d, .map before count rfl (.cons (.tstring name) .nil)
    (.cons (.vector (.absent rfl) length all) .nil)⟩

theorem traceOf_noHits : hitsByName.TraceOf noHits (nameTrace []) :=
  traceOf_name rfl rfl rfl rfl rfl .nil

theorem traceOf_oneHit : hitsByName.TraceOf oneHit (nameTrace [hitTrace]) := by
  have opening : Scan.versionHeader.Takes ⟨oneHit, 22⟩ (.ofWords (some 3) 1) ⟨oneHit, 28⟩ := rfl
  have known : hitsByName.registry.latest? "Hit" = some hitLayout := rfl
  have energy : Primitive.uint8.scan.Takes ⟨oneHit, 28⟩ (.uint 7) ⟨oneHit, 29⟩ := rfl
  have hit : hitTrace.Reads hitsByName.registry true (.named "Hit")
      hitsByName.context.mapValues.items ⟨oneHit, 22⟩ ⟨oneHit, 29⟩ :=
    .object (fun _ => List.not_mem_nil) known opening (regular_hitsByName.chosen known 1).symm
      (.cons (.number energy) .nil)
  exact traceOf_name rfl rfl rfl rfl rfl (.cons hit .nil)

/-- what the name without hits leaves -/
def afterNoHits : Generator :=
  (hitsByName.read noHits (some (Generator.beginEntry {}))).2.generator.getD {}

/-- what the hit leaves after it -/
def afterOneHit : Generator :=
  (hitsByName.read oneHit (some afterNoHits.beginEntry)).2.generator.getD afterNoHits

theorem readsInto_noHits : hitsByName.ReadsInto {} [noHits] afterNoHits :=
  .single (by decide +kernel)

theorem readsInto_oneHit : hitsByName.ReadsInto afterNoHits [oneHit] afterOneHit :=
  .single (by decide +kernel)

/-- the hit after the name without hits, and then a part of it again -/
theorem model_settled_hits : afterNoHits.incomplete = true ∧
    (∃ h model, hitsByName.ReadsInto {} [oneHit] h ∧ afterOneHit.model = .ok model ∧
      h.model = .ok model) ∧
    ∃ fault d k, hitsByName.read (oneHit.extract 0 20) (some afterOneHit.beginEntry) =
      (.error fault, { cursor := d, generator := some k }) ∧
        k.node = afterOneHit.node ∧ k.model = afterOneHit.model := by
  have complete : afterOneHit.incomplete = false := by decide +kernel
  have failing : (hitsByName.read (oneHit.extract 0 20) (some afterOneHit.beginEntry)).1.isOk =
      false := by
    decide +kernel
  have uniform : Mark.Uniform
      (Trace.marksAll hitsByName.context ([nameTrace []] ++ [nameTrace [hitTrace]])) := by
    unfold Mark.Uniform
    decide
  obtain ⟨earlier, later⟩ := Registry.model_settled regular_hitsByName hitsByName.type
  refine ⟨by decide +kernel, ?_, ?_⟩
  · obtain ⟨h, model, alone, -, made, same⟩ := earlier {} [noHits] oneHit _ _ _ apart_hitsByName
      (readsInto_noHits.append readsInto_oneHit) complete (.cons traceOf_noHits .nil)
      traceOf_oneHit uniform
    exact ⟨h, model, alone, made, same⟩
  · obtain ⟨value, cursor, read⟩ := readsInto_oneHit.read
    obtain ⟨result, d, k, ran, kept⟩ := later none hitsByName.context _ _ _ _ _ _ apart_hitsByName
      readsInto_noHits.course read complete .done ⟨oneHit.extract 0 20, 0⟩
    have ran : hitsByName.read (oneHit.extract 0 20) (some afterOneHit.beginEntry) = _ := ran
    rw [ran] at failing
    cases result with
    | error fault => exact ⟨fault, d, k, ran, kept⟩
    | ok value => cases failing

end Baskets
