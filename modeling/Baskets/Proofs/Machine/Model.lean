import Baskets.Proofs.Machine.Columns
import Baskets.Proofs.Reading.Faithful

/-!
# The program of a model reads what the reader reads

A fresh generator that was complete after one entry gives a model.  Its program, run on the bytes of
the entry, ends where the reader ended, with the stack as it was and the numbers, texts and lengths
of the entry in their columns (`Interpretation.program_reads`).  This takes one thing of the entry:
headers at one position are all of one length.  A program has one skip for them, and could not tell
a long header from a short one.
-/

namespace Baskets

/-! ## headers of one length -/

/-- headers at one position are of one length -/
def Mark.Uniform (marks : List Mark) : Prop :=
  ∀ first ∈ marks, ∀ second ∈ marks, first.path = second.path → first.length = second.length

theorem Mark.uniform_of_nodup {marks : List Mark} (once : (marks.map Mark.path).Nodup) :
    Uniform marks := by
  intro first here second there same
  rw [List.inj_on_of_nodup_map once here there same]

theorem exists_of_firstLength {marks : List Mark} {mark : Mark} (mem : mark ∈ marks) :
    ∃ first ∈ marks, first.node = mark.node ∧ firstLength marks mark.node = first.length := by
  unfold firstLength
  cases found : marks.find? fun other => other.node = mark.node with
  | none =>
    have other := List.find?_eq_none.1 found mark mem
    exact absurd (decide_eq_true rfl) other
  | some first =>
    have same := List.find?_some found
    exact ⟨first, List.mem_of_find?_eq_some found, of_decide_eq_true same, rfl⟩

/-- then the headers that came first settle the lengths of all -/
theorem Mark.Uniform.agree {registry : Registry} {type : StreamType} {ctx : Context}
    {marks : List Mark} (uniform : Uniform marks) (apart : Place.Apart (registry.places type ctx))
    (within : ∀ mark ∈ marks, mark.Within registry type ctx) : Agree (firstLength marks) marks := by
  intro mark mem
  obtain ⟨first, there, same, length⟩ := exists_of_firstLength mem
  obtain ⟨role, inPlaces, named⟩ := within mark mem
  obtain ⟨firstRole, firstInPlaces, firstNamed⟩ := within first there
  rw [same] at firstNamed
  -- one node is named after one place, so both headers are at one position
  have places := apart _ inPlaces _ firstInPlaces (named.placeKey_eq firstNamed)
  rw [length]
  exact uniform mark mem first there (Prod.mk.inj places).1

/-! ## the program -/

namespace Reading.Mirrored

theorem of_ok {α : Type} {g h : Generator} {plain : Except Fault α × Progress} {a : α}
    {cursor : Cursor}
    (mirrored : Mirrored g plain (.ok a, { cursor, generator := some h })) :
    plain = (.ok a, { cursor, generator := none }) := by
  cases mirrored
  rfl

end Reading.Mirrored

namespace Plan

open Command

variable {plan : Plan}

/-- the program of the whole tree of a type, run from a fresh machine -/
theorem program_runs (regular : plan.registry.Regular) {type : StreamType} {ctx : Context}
    {trace : Trace} {c d : Cursor} (reads : trace.Reads plan.registry true type ctx c d)
    (agree : Agree plan.length (trace.marks ctx)) (field : Option String) (stack : List Int) :
    (Machine.run (plan.whole type field ctx).program.init { cursor := c, stack }).bind
        (Machine.run (plan.whole type field ctx).program.code) =
      some { cursor := d, stack,
             columns := Write.all (trace.writes ctx)
               (opened (plan.registry.listPlaces type ctx) fun _ => []) } := by
  obtain ⟨commands, means, runs⟩ := plan.decodes regular type ctx field
  have init : Means (plan.whole type field ctx).program.init _ :=
    means_zeros_below rfl (means_init_single (plan.means_init type field ctx))
  have code : Means (plan.whole type field ctx).program.code
      ([].flatMap Instruction.commands ++ commands) :=
    means_before rfl rfl straight_nil (means_single means)
  rw [init.run, execAll_zeros, Option.bind_some, code.run]
  exact runs trace c d reads agree stack _

end Plan

/-- **The generated program reads what the interpreter read.** -/
theorem Interpretation.program_reads {interpretation : Interpretation} {entry : Bytes}
    {value : Value} {cursor : Cursor} {g : Generator} (regular : interpretation.registry.Regular)
    (apart : Place.Apart (interpretation.registry.places interpretation.type interpretation.context))
    (read : interpretation.read entry (some {}) = (.ok value, { cursor, generator := some g }))
    (complete : g.incomplete = false) :
    interpretation.read entry none = (.ok value, { cursor, generator := none }) ∧
      ∃ (trace : Trace) (model : Model),
        trace.Reads interpretation.registry true interpretation.type interpretation.context
          { data := entry } cursor ∧
        value = trace.value ∧ g.model = .ok model ∧
        (Mark.Uniform (trace.marks interpretation.context) → ∀ stack : List Int, ∃ columns,
          (Machine.run model.program.init { cursor := { data := entry }, stack }).bind
              (Machine.run model.program.code) = some { cursor, stack, columns } ∧
            trace.Fills interpretation.registry interpretation.type interpretation.context
              columns) := by
  have mirrored : Reading.Mirrored {} (interpretation.read entry none)
      (interpretation.read entry (some {})) :=
    interpretation.registry.faithful_read interpretation.type none interpretation.context _ _
  rw [read] at mirrored
  obtain ⟨trace, reads, same, rfl⟩ := read_traced read
  let plan := Plan.ofMarks interpretation.registry (trace.marks interpretation.context)
  have node : (trace.contribute none interpretation.context {}).node =
      plan.whole interpretation.type none interpretation.context :=
    Plan.node_entry regular apart none reads complete
  have form := plan.form_whole regular interpretation.type none interpretation.context
  rw [← node] at form
  refine ⟨mirrored.of_ok, trace, _, reads, same, Generator.model_of_form form,
    fun uniform stack => ⟨_, ?_, Trace.fills_all regular apart reads⟩⟩
  have agree := uniform.agree apart (Trace.marks_within regular reads)
  show (Machine.run (Node.program _).init _).bind (Machine.run (Node.program _).code) = _
  rw [node]
  exact plan.program_runs regular reads agree none stack

/-! ### a point -/

/-- a point has three headers at three positions, a number, and a list of numbers -/
theorem reads_points {trace : Trace} {c d : Cursor}
    (reads : trace.Reads points.registry true points.type points.context c d) :
    Mark.Uniform (trace.marks points.context) ∧ ∃ (unique bits : Nat) (x : Value) (hits : List Value),
      trace.value = .record [("@fUniqueID", .uint unique), ("@fBits", .uint bits), ("x", x),
        ("hits", .list hits)] ∧
      trace.writes points.context = .value (["x"], "") x :: .count (["hits"], "") hits.length ::
        hits.map (.value (["hits", "@items"], "")) := by
  have reads : trace.Reads points.registry true (.named "Point") points.context c d := reads
  cases reads with
  | @object _ _ _ _ _ header latest layout parts outside known takes chosen all =>
    obtain rfl : layout = latest := chosen.trans (regular_points.chosen known header.version)
    have parts := (Registry.partsIn_eq (outside rfl) known).symm.trans partsIn_points
    unfold Trace.marks Trace.value Trace.writes
    rw [parts] at all ⊢
    cases all with
    | cons base members =>
    cases members with
    | cons number rest =>
    cases rest with
    | cons list none =>
    cases none
    cases base
    cases number with
    | @number _ _ _ _ x takes =>
    cases list with
    | @vector _ _ _ _ _ _ skipped items before count all =>
    obtain ⟨-, writes, length⟩ := Plan.numbers_reads all
    refine ⟨?_, _, _, x, Trace.values items, rfl, ?_⟩
    · refine Mark.uniform_of_nodup ?_
      show (([] : List String) :: ["@base TObject"] :: ["hits"] ::
        (Trace.marksAll _ items ++ []).map Mark.path).Nodup
      rw [Plan.numbers_marks all]
      decide
    · show _ :: (_ :: Trace.writesAll _ items ++ []) = _
      rw [writes, length, List.append_nil]
      rfl

theorem listPlaces_points :
    points.registry.listPlaces points.type points.context = [(["hits"], "")] := by
  show points.registry.listPlaces (.named "Point") points.context = _
  rw [Registry.listPlaces_named, partsIn_points]
  simp [Registry.listPlaces, Registry.gather, StreamType.listPlaces, StreamType.listRoles,
    StreamType.ofClass, Part.type, Part.context, Context.inBase, Context.inMember, Context.inSlot,
    Context.withHeader, Context.inClass, Interpretation.context, Context.ofOptions]

theorem program_reads_point : ∃ (value : Value) (cursor : Cursor) (g : Generator) (model : Model)
    (x : Value) (columns : Columns),
    points.read point (some {}) = (.ok value, { cursor, generator := some g }) ∧
      g.model = .ok model ∧
      (Machine.run model.program.init { cursor := { data := point }, stack := [3] }).bind
        (Machine.run model.program.code) = some { cursor, stack := [3], columns } ∧
      cursor.pos = 31 ∧ x.whole? = some 7 ∧ columns (Place.name (["x"], "") ++ "-data") = [x] ∧
      columns (Place.name (["hits"], "") ++ "-offsets") = [.int 0, .int 1] := by
  obtain ⟨value, cursor, g, read⟩ := @Interpretation.exists_of_isOk points point {}
    (by decide +kernel)
  have complete : (points.read point (some {})).2.generator.map (·.incomplete) = some false := by
    decide +kernel
  have position : (points.read point (some {})).2.cursor.pos = 31 := by decide +kernel
  have seven : ((points.read point (some {})).1.toOption.bind
      (Value.field? "x")).bind Value.whole? = some 7 := by decide +kernel
  have one : (((points.read point (some {})).1.toOption.bind
      (Value.field? "hits")).bind Value.items?).map List.length = some 1 := by decide +kernel
  rw [read] at complete position seven one
  obtain ⟨-, trace, model, reads, rfl, made, runs⟩ := Interpretation.program_reads regular_points
    apart_points read (Option.some.inj complete)
  obtain ⟨uniform, unique, bits, x, hits, shape, writes⟩ := reads_points reads
  obtain ⟨columns, ran, fills⟩ := runs uniform [3]
  rw [shape] at seven one
  have hitsLength : hits.length = 1 := Option.some.inj one
  refine ⟨_, cursor, g, model, x, columns, read, made, ran, position, seven, ?_, ?_⟩
  · rw [fills.data _ (by rw [places_points]; decide)]
    unfold Trace.valuesAt
    rw [writes]
    simp [Write.value?]
  · have lengths : trace.lengthsAt points.context (["hits"], "") = [1] := by
      unfold Trace.lengthsAt
      rw [writes]
      simp [List.filterMap_cons, Write.count?, hitsLength]
    rw [fills.offsets _ (by rw [listPlaces_points]; decide), lengths]
    rfl

end Baskets
