import Baskets.Proofs.Plan.Form
import Baskets.Proofs.Plan.Headers

/-!
# What a model depends on

A basket gives a model as soon as one of its entries shows all of the type.  No value ever comes
into the model: entries with the same outline, that is with the same headers, lengths of lists and
layouts, have the same model.  But headers do.  Where every class has one layout, the models of two
baskets are equal just when the first header at each node has the same length in both
(`Interpretation.discover_eq_iff`), and a key made of the type, the options and the layouts says
nothing of these lengths.
-/

namespace Baskets

/-! ## outlines -/

namespace Trace

mutual

/-- the trace without its values: headers, lengths of lists and layouts -/
def outline : Trace → Trace
  | .number p _ => .number p (.bool false)
  | .text kind header _ => .text kind header #[]
  | .head header _ _ => .head header 0 0
  | .datime _ => .datime 0
  | .time header _ => .time header 0
  | .ref _ => .ref 0
  | .refArray header _ _ => .refArray header #[] []
  | .vector element header items => .vector element header (outlines items)
  | .array element items => .array element (outlines items)
  | .map header keys values => .map header (outlines keys) (outlines values)
  | .object className header layout otherVersion parts =>
    .object className header layout otherVersion (outlines parts)

def outlines : List Trace → List Trace
  | [] => []
  | trace :: traces => trace.outline :: outlines traces

end

@[simp]
theorem length_outlines (traces : List Trace) : (outlines traces).length = traces.length := by
  induction traces with
  | nil => rfl
  | cons trace traces ih => exact congrArg (· + 1) ih

mutual

theorem contribute_outline : (trace : Trace) → (field : Option String) → (ctx : Context) →
    (g : Generator) → trace.outline.contribute field ctx g = trace.contribute field ctx g
  | .vector element header items, field, ctx, g => by
    have inner := funext (contributeAll_outlines none ctx.items items)
    show g.inList element (outlines items).length _ (contributeAll none ctx.items (outlines items)) = _
    rw [length_outlines, inner]
    rfl
  | .array element items, field, ctx, g => by
    have inner := funext (contributeAll_outlines field ctx.elements items)
    show g.inList element (outlines items).length
      (Contribution.array element (outlines items).length field ctx)
      (contributeAll field ctx.elements (outlines items)) = _
    rw [length_outlines, inner]
    rfl
  | .map header keys values, field, ctx, g => by
    have keysInner := funext (contributeAll_outlines none ctx.mapKeys keys)
    have valuesInner := funext (contributeAll_outlines none ctx.mapValues values)
    unfold outline contribute
    simp [keysInner, valuesInner]
  | .object className header layout otherVersion parts, field, outer, g =>
    congrArg Generator.left (contributeParts_outlines _ layout.parts parts _)
  | .number .., _, _, _ | .text .., _, _, _ | .head .., _, _, _ | .datime _, _, _, _
  | .time .., _, _, _ | .ref _, _, _, _ | .refArray .., _, _, _ => rfl

theorem contributeAll_outlines (field : Option String) (ctx : Context) :
    (traces : List Trace) → (g : Generator) →
      contributeAll field ctx (outlines traces) g = contributeAll field ctx traces g
  | [], _ => rfl
  | trace :: traces, g => by
    show contributeAll field ctx (outlines traces) (trace.outline.contribute field ctx g) = _
    rw [contribute_outline trace, contributeAll_outlines field ctx traces]
    rfl

theorem contributeParts_outlines (ctx : Context) (parts : List Part) :
    (traces : List Trace) → (g : Generator) →
      contributeParts ctx parts (outlines traces) g = contributeParts ctx parts traces g
  | [], _ => rfl
  | trace :: traces, g => by
    cases parts with
    | nil => rfl
    | cons part parts =>
      have first : trace.outline.contributePart ctx part g = trace.contributePart ctx part g := by
        cases part with
        | base name => exact congrArg Generator.left (contribute_outline trace _ _ _)
        | member own => exact contribute_outline trace _ _ g
      rw [contributeParts_cons, ← first, ← contributeParts_outlines ctx parts traces]
      exact contributeParts_cons ctx part parts trace.outline (outlines traces) g

end

@[simp] theorem entries_outlines (field : Option String) (ctx : Context) (traces : List Trace)
    (g : Generator) : entries field ctx (outlines traces) g = entries field ctx traces g := by
  induction traces generalizing g with
  | nil => rfl
  | cons trace traces ih =>
    show entries field ctx (outlines traces) (trace.outline.contribute field ctx g.beginEntry) = _
    rw [contribute_outline, ih]
    rfl

end Trace

/-! ## the entries that make a model -/

namespace Interpretation

variable {interpretation : Interpretation} {list : List (Except Fault Bytes)} {traces : List Trace}

/-- the traces of the first entries, up to the first one that is complete -/
inductive ShowsFrom (interpretation : Interpretation) :
    List (Except Fault Bytes) → List Trace → Prop where
  | last {entry : Bytes} {rest : List (Except Fault Bytes)} {trace : Trace} {cursor : Cursor}
    (reads : trace.Reads interpretation.registry true interpretation.type interpretation.context
      { data := entry } cursor)
    (complete : trace.complete = true) : ShowsFrom interpretation (.ok entry :: rest) [trace]
  | next {entry : Bytes} {rest : List (Except Fault Bytes)} {trace : Trace} {traces : List Trace}
    {cursor : Cursor}
    (reads : trace.Reads interpretation.registry true interpretation.type interpretation.context
      { data := entry } cursor)
    (incomplete : trace.complete = false) (others : ShowsFrom interpretation rest traces) :
    ShowsFrom interpretation (.ok entry :: rest) (trace :: traces)

/-- the traces of the entries of a basket that make its model -/
def Shows (interpretation : Interpretation) (basket : Basket) (traces : List Trace) : Prop :=
  ∃ list, basket.entries = .ok list ∧ interpretation.ShowsFrom list traces

theorem ShowsFrom.reads (shows_ : interpretation.ShowsFrom list traces) :
    ∀ trace ∈ traces, ∃ c d, trace.Reads interpretation.registry true interpretation.type
      interpretation.context c d := by
  induction shows_ with
  | last reads complete =>
    intro trace mem
    rw [List.mem_singleton.1 mem]
    exact ⟨_, _, reads⟩
  | next reads incomplete others ih =>
    intro trace mem
    rcases List.mem_cons.1 mem with rfl | mem
    · exact ⟨_, _, reads⟩
    · exact ih trace mem

theorem ShowsFrom.ne_nil (shows_ : interpretation.ShowsFrom list traces) : traces ≠ [] := by
  cases shows_ <;> exact List.cons_ne_nil _ _

/-- what becomes of a basket that begins with an entry -/
theorem discoverFrom_ok (g : Generator) (entry : Bytes) :
    interpretation.discoverFrom g (.ok entry :: list) =
      match interpretation.read entry (some g.beginEntry) with
      | (.error (.ungeneratable _), _) => pure none
      | (.error fault, _) => throw fault
      | (.ok _, progress) =>
        if (progress.generator.getD g).incomplete then
          interpretation.discoverFrom (progress.generator.getD g) list
        else do return some (← (progress.generator.getD g).model) :=
  rfl

/-- the first entry of a basket that gives a model is read with success -/
theorem read_of_discoverFrom {g : Generator} {first : Except Fault Bytes} {m : Model}
    (found : interpretation.discoverFrom g (first :: list) = .ok (some m)) :
    ∃ (entry : Bytes) (value : Value) (cursor : Cursor) (h : Generator), first = .ok entry ∧
      interpretation.read entry (some g.beginEntry) = (.ok value, { cursor, generator := some h }) := by
  cases first with
  | error fault => cases found
  | ok entry =>
    rw [discoverFrom_ok] at found
    rcases read : interpretation.read entry (some g.beginEntry) with ⟨result, progress⟩
    rw [read] at found
    cases result with
    | error fault => cases fault <;> cases found
    | ok value =>
      have ok : (interpretation.read entry (some g.beginEntry)).1.isOk = true := by
        rw [read]
        rfl
      obtain ⟨_, cursor, h, same⟩ := exists_of_isOk ok
      exact ⟨entry, _, cursor, h, rfl, same⟩

/-- and then either makes the model, or leaves it to the rest -/
theorem discoverFrom_cons {g h : Generator} {entry : Bytes} {value : Value} {cursor : Cursor}
    (read : interpretation.read entry (some g.beginEntry) =
      (.ok value, { cursor, generator := some h })) :
    interpretation.discoverFrom g (.ok entry :: list) =
      if h.incomplete then interpretation.discoverFrom h list else h.model.map some := by
  rw [discoverFrom_ok, read]
  show (if h.incomplete then interpretation.discoverFrom h list
    else do return some (← h.model) : Except Fault (Option Model)) = _
  cases h.model <;> rfl

/-- a model that was found is that of the generator after the entries that make it -/
theorem discoverFrom_shows {g : Generator} {m : Model}
    (found : interpretation.discoverFrom g list = .ok (some m)) :
    ∃ traces, interpretation.ShowsFrom list traces ∧
      (Trace.entries none interpretation.context traces g).incomplete = false ∧
      (Trace.entries none interpretation.context traces g).model = .ok m := by
  induction list generalizing g with
  | nil => cases found
  | cons first rest ih =>
    obtain ⟨entry, value, cursor, h, rfl, read⟩ := read_of_discoverFrom found
    rw [discoverFrom_cons read] at found
    obtain ⟨trace, reads, -, rfl⟩ := read_traced read
    have incomplete := Trace.incomplete_contribute trace none interpretation.context g.beginEntry
    have clean : g.beginEntry.incomplete = false := rfl
    rw [clean, Bool.false_or] at incomplete
    cases full : trace.complete with
    | false =>
      rw [full, Bool.not_false] at incomplete
      rw [if_pos incomplete] at found
      obtain ⟨traces, others, complete, model⟩ := ih found
      exact ⟨trace :: traces, .next reads full others, complete, model⟩
    | true =>
      rw [full, Bool.not_true] at incomplete
      rw [if_neg (Bool.eq_false_iff.1 incomplete)] at found
      refine ⟨[trace], .last reads full, incomplete, ?_⟩
      show Generator.model (trace.contribute none interpretation.context g.beginEntry) = .ok m
      cases made : Generator.model (trace.contribute none interpretation.context g.beginEntry) with
      | error fault =>
        rw [made] at found
        cases found
      | ok model =>
        rw [made] at found
        cases found
        rfl

theorem discover_shows {basket : Basket} {m : Model}
    (found : interpretation.discover basket = .ok (some m)) :
    ∃ traces, interpretation.Shows basket traces ∧
      (Trace.entries none interpretation.context traces {}).incomplete = false ∧
      (Trace.entries none interpretation.context traces {}).model = .ok m := by
  unfold discover at found
  cases entries : basket.entries with
  | error fault =>
    rw [entries] at found
    cases found
  | ok list =>
    rw [entries] at found
    obtain ⟨traces, shows_, complete, model⟩ := interpretation.discoverFrom_shows found
    exact ⟨traces, ⟨list, entries, shows_⟩, complete, model⟩

end Interpretation

/-! ## equal models -/

/-- a model has the tree of the generator and the form of the tree -/
theorem Generator.model_eq_ok {g : Generator} {m : Model} (made : g.model = .ok m) :
    g.node.form = .ok m.form ∧ m.node = g.node := by
  obtain ⟨form, derived, made⟩ := bind_ok made
  obtain rfl := Except.ok.inj made
  exact ⟨derived, rfl⟩

/-- a model is told by its tree -/
theorem Generator.model_eq_iff {g h : Generator} {m n : Model} (first : g.model = .ok m)
    (second : h.model = .ok n) : m = n ↔ g.node = h.node := by
  refine ⟨fun same => ?_, fun same => ?_⟩
  · rw [← (model_eq_ok first).2, ← (model_eq_ok second).2, same]
  · unfold Generator.model at first second
    rw [same, second] at first
    exact (Except.ok.inj first).symm

theorem firstLength_of_notMem {marks : List Mark} {kind : NodeKind}
    (none : ∀ mark ∈ marks, mark.node ≠ kind) : firstLength marks kind = 0 := by
  have nothing := firstLength_append_of_notMem none []
  rw [List.append_nil] at nothing
  exact nothing

/-- only the nodes of headers have lengths -/
theorem forall_headers_iff {registry : Registry} {type : StreamType} {ctx : Context}
    {marks others : List Mark}
    (first : ∀ mark ∈ marks, (mark.path, mark.node) ∈ registry.headers type ctx)
    (second : ∀ mark ∈ others, (mark.path, mark.node) ∈ registry.headers type ctx) :
    (∀ header ∈ registry.headers type ctx,
      firstLength marks header.2 = firstLength others header.2) ↔
        ∀ kind, firstLength marks kind = firstLength others kind := by
  refine ⟨fun same kind => ?_, fun same header _ => same header.2⟩
  by_cases there : ∃ path, (path, kind) ∈ registry.headers type ctx
  · obtain ⟨path, mem⟩ := there
    exact same _ mem
  · rw [firstLength_of_notMem, firstLength_of_notMem]
    · intro mark mem node
      exact there ⟨mark.path, node ▸ second mark mem⟩
    · intro mark mem node
      exact there ⟨mark.path, node ▸ first mark mem⟩

theorem Trace.marksAll_headers {registry : Registry} (regular : registry.Regular) {type : StreamType}
    {ctx : Context} {traces : List Trace}
    (reads : ∀ trace ∈ traces, ∃ c d, trace.Reads registry true type ctx c d) :
    ∀ mark ∈ marksAll ctx traces, (mark.path, mark.node) ∈ registry.headers type ctx := by
  intro mark mem
  rw [marksAll_eq] at mem
  obtain ⟨trace, there, mem⟩ := List.mem_flatMap.1 mem
  obtain ⟨c, d, one⟩ := reads trace there
  exact marks_headers regular type ctx one mark mem

theorem Plan.whole_ofMarks_eq_iff {registry : Registry} {type : StreamType} {ctx : Context}
    {marks others : List Mark} (field : Option String) :
    (ofMarks registry marks).whole type field ctx = (ofMarks registry others).whole type field ctx ↔
      ∀ header ∈ registry.headers type ctx,
        firstLength marks header.2 = firstLength others header.2 := by
  unfold whole ofMarks
  rw [Node.mk_eq_iff, and_iff_right rfl, List.singleton_inj, node_eq_iff]

namespace Interpretation

variable {interpretation : Interpretation} {traces : List Trace}

/-- where there is one layout of each class, entries make a model as soon as one is complete -/
theorem model_of_traces (regular : interpretation.registry.Regular)
    (apart : Place.Apart (interpretation.registry.places interpretation.type interpretation.context))
    (reads : ∀ trace ∈ traces, ∃ c d, trace.Reads interpretation.registry true interpretation.type
      interpretation.context c d) (some_ : traces ≠ [])
    (complete : (Trace.entries none interpretation.context traces {}).incomplete = false) :
    ∃ m, (Trace.entries none interpretation.context traces {}).model = .ok m ∧
      m.node = (Plan.ofMarks interpretation.registry
        (Trace.marksAll interpretation.context traces)).whole interpretation.type none
          interpretation.context ∧
      m.form = interpretation.registry.formOf interpretation.options.indexFormat
        interpretation.type [] [] := by
  let plan := Plan.ofMarks interpretation.registry (Trace.marksAll interpretation.context traces)
  have node := Plan.node_entries regular apart none reads some_ complete
  have form := plan.form_whole regular interpretation.type none interpretation.context
  rw [← node] at form
  exact ⟨_, Generator.model_of_form form, node, rfl⟩

/-- the model of a basket of one entry that shows all of the type -/
theorem discover_of_single {basket : Basket} {entry : Bytes}
    (regular : interpretation.registry.Regular)
    (apart : Place.Apart (interpretation.registry.places interpretation.type interpretation.context))
    (entries : basket.entries = .ok [.ok entry])
    (ok : (interpretation.read entry (some {})).1.isOk = true)
    (complete : (interpretation.read entry (some {})).2.generator.map (·.incomplete) = some false) :
    ∃ (trace : Trace) (cursor : Cursor) (m : Model),
      trace.Reads interpretation.registry true interpretation.type interpretation.context
        { data := entry } cursor ∧
      interpretation.discover basket = .ok (some m) ∧
      m.node = (Plan.ofMarks interpretation.registry (trace.marks interpretation.context)).whole
        interpretation.type none interpretation.context := by
  obtain ⟨value, cursor, h, read⟩ := exists_of_isOk ok
  obtain ⟨trace, reads, -, rfl⟩ := read_traced read
  rw [read] at complete
  have full := Option.some.inj complete
  obtain ⟨m, made, node, -⟩ := model_of_traces regular apart
    (List.forall_mem_singleton.2 ⟨_, _, reads⟩) (List.cons_ne_nil trace []) full
  refine ⟨trace, cursor, m, reads, ?_, ?_⟩
  · unfold discover
    rw [entries]
    show interpretation.discoverFrom {} [.ok entry] = _
    rw [discoverFrom_cons read, if_neg (Bool.eq_false_iff.1 full)]
    show Except.map some (Trace.entries none interpretation.context [trace] {}).model = _
    rw [made]
    rfl
  · rw [node]
    congr 2
    exact List.append_nil _

end Interpretation

/-- **A model depends on the lengths of headers.**  Two baskets that each give a model show some
entries on the way to it.  If these have the same outlines, the models are equal; and where there is
one layout of each class, the models are equal just when the first header at every node was of one
length in both. -/
theorem Interpretation.discover_eq_iff {interpretation : Interpretation} {first second : Basket}
    {m n : Model} (firstFound : interpretation.discover first = .ok (some m))
    (secondFound : interpretation.discover second = .ok (some n)) :
    ∃ traces others, interpretation.Shows first traces ∧ interpretation.Shows second others ∧
      (Trace.outlines traces = Trace.outlines others → m = n) ∧
      (interpretation.registry.Regular →
        Place.Apart (interpretation.registry.places interpretation.type interpretation.context) →
          (m = n ↔ ∀ kind, firstLength (Trace.marksAll interpretation.context traces) kind =
            firstLength (Trace.marksAll interpretation.context others) kind)) := by
  obtain ⟨traces, showsFirst, complete, model⟩ := discover_shows firstFound
  obtain ⟨others, showsSecond, completeToo, modelToo⟩ := discover_shows secondFound
  have same := Generator.model_eq_iff model modelToo
  refine ⟨traces, others, showsFirst, showsSecond, fun outlines => ?_, fun regular apart => ?_⟩
  · rw [same, ← Trace.entries_outlines, outlines, Trace.entries_outlines]
  · obtain ⟨_, -, showsFirst⟩ := showsFirst
    obtain ⟨_, -, showsSecond⟩ := showsSecond
    rw [same, Plan.node_entries regular apart none showsFirst.reads showsFirst.ne_nil complete,
      Plan.node_entries regular apart none showsSecond.reads showsSecond.ne_nil completeToo,
      Plan.whole_ofMarks_eq_iff]
    exact forall_headers_iff (Trace.marksAll_headers regular showsFirst.reads)
      (Trace.marksAll_headers regular showsSecond.reads)

/-! ### points with two kinds of headers -/

/-- a basket of one entry -/
def oneEntry (entry : Bytes) : Basket where
  header :=
    { totalBytes := entry.size + 64, headerVersion := 4, objectLength := entry.size, datime := 0,
      headerLength := 64, cycle := 1, version := 3, bufferSize := 32000, entrySize := 0,
      entryCount := 1, lastOffset := entry.size + 64 }
  contents := some { data := entry, offsets := some [0, entry.size] }

@[simp] theorem entries_oneEntry (entry : Bytes) : (oneEntry entry).entries = .ok [.ok entry] := by
  show Except.ok (Basket.between entry [0, entry.size]) = _
  unfold Basket.between Basket.slice?
  rw [if_pos ⟨Nat.zero_le _, Nat.le_refl _⟩, Array.extract_size]
  rfl

/-- the point 7 again, with a version but no length before it -/
def barePoint : Bytes := #[0, 1] ++ point.extract 6 point.size

/-- the node of the header of a point -/
def pointDispatch : NodeKind :=
  .dispatch ((points.context.inClass "Point").label "Point" "dispatch")

theorem pointDispatch_headers :
    ([], pointDispatch) ∈ points.registry.headers points.type points.context := by
  show _ ∈ points.registry.headers (.named "Point") points.context
  rw [Registry.headers_named]
  exact List.mem_cons_self

/-- the first header of a point is its own -/
theorem firstLength_point {trace : Trace} {c d : Cursor}
    (reads : trace.Reads points.registry true points.type points.context c d) :
    firstLength (trace.marks points.context) pointDispatch =
      (Scan.versionHeader.run c).2.pos - c.pos := by
  have reads : trace.Reads points.registry true (.named "Point") points.context c d := reads
  cases reads with
  | object outside known takes chosen all =>
    rw [takes]
    exact firstLength_cons_self _ _

theorem discover_point {entry : Bytes} (ok : (points.read entry (some {})).1.isOk = true)
    (complete : (points.read entry (some {})).2.generator.map (·.incomplete) = some false) :
    ∃ (trace : Trace) (cursor : Cursor) (m : Model),
      trace.Reads points.registry true points.type points.context { data := entry } cursor ∧
      points.discover (oneEntry entry) = .ok (some m) ∧
      m.node = (Plan.ofMarks points.registry (trace.marks points.context)).whole points.type none
        points.context :=
  Interpretation.discover_of_single regular_points apart_points (entries_oneEntry entry) ok complete

/-- the same point comes to two models, with one key -/
theorem discover_points_differ : ∃ m n, points.discover (oneEntry point) = .ok (some m) ∧
    points.discover (oneEntry barePoint) = .ok (some n) ∧ m ≠ n := by
  obtain ⟨trace, _, m, reads, first, node⟩ := @discover_point point (by decide +kernel)
    (by decide +kernel)
  obtain ⟨other, _, n, readsToo, second, nodeToo⟩ := @discover_point barePoint (by decide +kernel)
    (by decide +kernel)
  refine ⟨m, n, first, second, fun equal => ?_⟩
  rw [equal, nodeToo, Plan.whole_ofMarks_eq_iff] at node
  have lengths := node _ pointDispatch_headers
  rw [firstLength_point reads, firstLength_point readsToo] at lengths
  revert lengths
  decide +kernel

theorem discover_eq_iff_points : ∃ m n traces others,
    points.discover (oneEntry point) = .ok (some m) ∧
      points.discover (oneEntry barePoint) = .ok (some n) ∧
      points.Shows (oneEntry point) traces ∧ points.Shows (oneEntry barePoint) others ∧
      (m = n ↔ ∀ kind, firstLength (Trace.marksAll points.context traces) kind =
        firstLength (Trace.marksAll points.context others) kind) := by
  obtain ⟨_, _, m, -, first, -⟩ := @discover_point point (by decide +kernel) (by decide +kernel)
  obtain ⟨_, _, n, -, second, -⟩ := @discover_point barePoint (by decide +kernel)
    (by decide +kernel)
  obtain ⟨traces, others, showsFirst, showsSecond, -, same⟩ :=
    Interpretation.discover_eq_iff first second
  exact ⟨m, n, traces, others, first, second, showsFirst, showsSecond,
    same regular_points apart_points⟩

end Baskets
