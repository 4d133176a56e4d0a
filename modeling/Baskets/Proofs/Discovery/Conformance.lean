import Baskets.Proofs.Basket.Entries
import Baskets.Proofs.Discovery.Fallback
import Baskets.Proofs.Plan.Entries
import Baskets.Proofs.Scan

/-!
# Values and the form of the model

`Form.Fits` says that a value can stand in an array of a form.  Where there is one layout of each
class, the form of a model has no unknown content, and every value of the basket fits it, those of
the entries behind the one that made the model too (`Interpretation.fits_of_discover`).  The entry
that was complete has shown every type that any entry can show.

With several versions of a class neither holds: the fields of one version may be left open by an
entry that was not complete, and the next entry may be complete in another version.
-/

namespace Baskets

/-! ## forms without unknown contents -/

namespace Form

mutual

/-- whether all contents of lists are known -/
def known : Form → Bool
  | .leaf .. => true
  | .list _ content _ | .regular _ content _ => contentKnown content
  | .record _ contents _ => contentsKnown contents

def contentKnown : Option Form → Bool
  | none => false
  | some form => form.known

def contentsKnown : List Form → Bool
  | [] => true
  | form :: forms => form.known && contentsKnown forms

end

theorem contentsKnown_iff {forms : List Form} :
    contentsKnown forms = true ↔ ∀ form ∈ forms, form.known = true := by
  induction forms with
  | nil => simp [contentsKnown]
  | cons form forms ih =>
    unfold contentsKnown
    rw [Bool.and_eq_true, ih, List.forall_mem_cons]

/-! ## values of a form -/

/-- the fields of a record, less the two of a `TObject` -/
def ownFields (fields : List (String × Value)) : List (String × Value) :=
  fields.filter fun field => field.1 ≠ "@fUniqueID" ∧ field.1 ≠ "@fBits"

mutual

/-- the value can stand in an array of the form -/
inductive Fits : Form → Value → Prop where
  | number {p : Primitive} {tags : Tags} {value : Value} (holds : p.Holds value) :
    Fits (.leaf p [] tags) value
  | text {form : Form} {s : String} (text : form.isText = true) : Fits form (.text s)
  | list {format : IndexFormat} {inner : Form} {tags : Tags} {items : List Value}
    (all : ∀ item ∈ items, Fits inner item) : Fits (.list format (some inner) tags) (.list items)
  | regular {size : Nat} {inner : Form} {tags : Tags} {items : List Value}
    (length : items.length = size) (all : ∀ item ∈ items, Fits inner item) :
    Fits (.regular size (some inner) tags) (.list items)
  | map {format : IndexFormat} {key value : Form} {pairTags tags : Tags}
    {pairs : List (Value × Value)}
    (sorted : (Form.record none [key, value] pairTags).textParameter? "__array__" =
      some "sorted_map")
    (keys : ∀ pair ∈ pairs, Fits key pair.1) (values : ∀ pair ∈ pairs, Fits value pair.2) :
    Fits (.list format (some (.record none [key, value] pairTags)) tags) (.map pairs)
  | record {names : List String} {contents : List Form} {tags : Tags}
    {fields : List (String × Value)} (all : FitsFields names contents (ownFields fields)) :
    Fits (.record (some names) contents tags) (.record fields)

/-- the fields have these names, in this order, and can stand in arrays of these forms -/
inductive FitsFields : List String → List Form → List (String × Value) → Prop where
  | nil : FitsFields [] [] []
  | cons {name : String} {names : List String} {form : Form} {forms : List Form} {value : Value}
    {fields : List (String × Value)} (first : Fits form value)
    (rest : FitsFields names forms fields) :
    FitsFields (name :: names) (form :: forms) ((name, value) :: fields)

end

theorem FitsFields.append {names others : List String} {forms moreForms : List Form}
    {fields more : List (String × Value)} (first : FitsFields names forms fields)
    (second : FitsFields others moreForms more) :
    FitsFields (names ++ others) (forms ++ moreForms) (fields ++ more) := by
  induction fields generalizing names forms with
  | nil =>
    cases first
    exact second
  | cons field fields ih =>
    cases first with
    | cons one rest => exact .cons one (ih rest)

@[simp] theorem ownFields_append (fields more : List (String × Value)) :
    ownFields (fields ++ more) = ownFields fields ++ ownFields more := List.filter_append _ _

end Form

/-! ## the form of a type -/

theorem Layout.member_mem_parts {layout : Layout} {own : Member} :
    .member own ∈ layout.parts ↔ own ∈ layout.members := by
  unfold parts
  simp

theorem Layout.base_mem_parts {layout : Layout} {base : String} :
    .base base ∈ layout.parts ↔ base ∈ layout.bases := by
  unfold parts
  simp

namespace Registry

variable {registry : Registry} {format : IndexFormat}

/-- the fields that an object adds, with the forms of the parts -/
def columnsIn (registry : Registry) (format : IndexFormat) (ctx : Context) (parts : List Part) :
    List (String × Form) :=
  parts.flatMap (registry.partColumns format ctx.breadcrumbs ctx.path)

theorem formOf_inClass (name : String) (ctx : Context) :
    registry.formOf format (.named name) ctx.breadcrumbs ctx.path =
      let columns := registry.columnsIn format (ctx.inClass name)
        (registry.partsIn ctx.breadcrumbs name)
      Form.ofClass (columns.map Prod.fst) (columns.map Prod.snd) name (Place.name (ctx.path, "")) :=
  registry.formOf_named format name ctx.breadcrumbs ctx.path

/-- the form of a part, in the context of the part -/
theorem partColumns_eq (part : Part) (ctx : Context) :
    registry.partColumns format ctx.breadcrumbs ctx.path part =
      part.columns (registry.formOf format part.type (part.context ctx).breadcrumbs
        (part.context ctx).path) := by
  rw [part.breadcrumbs_context, part.path_context]
  rfl

theorem known_columns {form : Form} (known : form.known = true) (part : Part) :
    ∀ column ∈ part.columns form, column.2.known = true := by
  intro column mem
  cases part with
  | member own =>
    obtain rfl := List.mem_singleton.1 mem
    exact known
  | base name =>
    cases form with
    | leaf | list | regular => cases mem
    | record names contents tags =>
      cases names with
      | none => cases mem
      | some names =>
        have known : Form.contentsKnown contents = true := known
        exact Form.contentsKnown_iff.1 known _ (List.of_mem_zip mem).2

/-- the form of a type has no unknown contents -/
@[simp] theorem known_formOf (type : StreamType) (ctx : Context) :
    (registry.formOf format type ctx.breadcrumbs ctx.path).known = true := by
  induction type, ctx using registry.walk with
  | primitive | text | object | datime | time | ref | refArray =>
    rw [formOf]
    rfl
  | vector element ctx ih =>
    rw [formOf]
    exact ih
  | array element count ctx ih =>
    rw [formOf]
    exact ih
  | map key value ctx keys values =>
    rw [formOf]
    exact Form.contentsKnown_iff.2
      (List.forall_mem_cons.2 ⟨keys, List.forall_mem_singleton.2 values⟩)
  | named name ctx ih =>
    rw [formOf_inClass]
    refine Form.contentsKnown_iff.2 ?_
    intro form mem
    obtain ⟨column, there, rfl⟩ := List.mem_map.1 mem
    obtain ⟨part, among, own⟩ := List.mem_flatMap.1 there
    rw [partColumns_eq] at own
    exact known_columns (ih part among) part column own

/-! ## values of a type -/

/-- what the values of a part add to an object fits what the part adds to the form -/
theorem fitsFields_part (regular : registry.Regular) {layout : Layout}
    (known : layout ∈ registry.layouts) {part : Part} (mem : part ∈ layout.parts) {ctx : Context}
    {generating : Bool} {trace : Trace} {c d : Cursor}
    (reads : trace.Reads registry generating part.type (part.context ctx) c d)
    (fits : (registry.formOf format part.type (part.context ctx).breadcrumbs
      (part.context ctx).path).Fits trace.value) :
    Form.FitsFields ((registry.partColumns format ctx.breadcrumbs ctx.path part).map Prod.fst)
      ((registry.partColumns format ctx.breadcrumbs ctx.path part).map Prod.snd)
      (Form.ownFields (part.fields trace.value)) := by
  rw [partColumns_eq]
  cases part with
  | member own =>
    have plain := regular.membersPlain layout known own (Layout.member_mem_parts.1 mem)
    have kept : Form.ownFields [(own.name, trace.value)] = [(own.name, trace.value)] := by
      refine List.filter_eq_self.2 fun field here => decide_eq_true ?_
      obtain rfl := List.mem_singleton.1 here
      constructor
      · intro name
        have name : own.name = "@fUniqueID" := name
        rw [name] at plain
        exact plain rfl
      · intro name
        have name : own.name = "@fBits" := name
        rw [name] at plain
        exact plain rfl
    show Form.FitsFields [own.name] [_] (Form.ownFields [(own.name, trace.value)])
    rw [kept]
    exact .cons fits .nil
  | base name =>
    have inside := Layout.base_mem_parts.1 mem
    rcases regular.basesKnown layout known name inside with rfl | ⟨-, type⟩
    · have reads : trace.Reads registry generating .object (ctx.inBase "TObject") c d := reads
      cases reads with
      | head =>
        show Form.FitsFields (Form.columns (registry.formOf format .object _ _) |>.map Prod.fst)
          (Form.columns (registry.formOf format .object _ _) |>.map Prod.snd) _
        rw [formOf]
        exact .nil
    · have reads : trace.Reads registry generating (.ofClass name) (ctx.inBase name) c d := reads
      have fits : (registry.formOf format (.ofClass name) (ctx.inBase name).breadcrumbs
        (ctx.inBase name).path).Fits trace.value := fits
      show Form.FitsFields (Form.columns (registry.formOf format (.ofClass name)
          (ctx.inBase name).breadcrumbs (ctx.inBase name).path) |>.map Prod.fst)
        (Form.columns (registry.formOf format (.ofClass name)
          (ctx.inBase name).breadcrumbs (ctx.inBase name).path) |>.map Prod.snd) _
      rw [type] at reads fits ⊢
      rw [formOf_inClass] at fits ⊢
      cases reads with
      | object =>
        rw [Form.columns_ofClass]
        cases fits with
        | record all => exact all

/-- the fields of an object fit the columns of its form, if those of every part do -/
theorem fitsFields_parts (regular : registry.Regular) {layout : Layout}
    (known : layout ∈ registry.layouts) {ctx : Context} {parts : List Part}
    (among : ∀ part ∈ parts, part ∈ layout.parts)
    (inner : ∀ part ∈ parts, ∀ {shown trace : Trace} {c d e f : Cursor},
      shown.Reads registry true part.type (part.context ctx) c d → shown.complete = true →
      trace.Reads registry false part.type (part.context ctx) e f →
        (registry.formOf format part.type (part.context ctx).breadcrumbs
          (part.context ctx).path).Fits trace.value)
    {shown traces : List Trace} {c d e f : Cursor}
    (showing : Trace.ReadsParts registry true ctx parts c shown d)
    (complete : Trace.completeParts parts shown = true)
    (reads : Trace.ReadsParts registry false ctx parts e traces f) :
    Form.FitsFields ((registry.columnsIn format ctx parts).map Prod.fst)
      ((registry.columnsIn format ctx parts).map Prod.snd)
      (Form.ownFields (Trace.fields parts traces)) := by
  induction parts generalizing shown traces c e with
  | nil =>
    cases reads
    exact .nil
  | cons part parts ih =>
    cases showing with
    | cons showFirst showRest =>
      cases reads with
      | cons readFirst readRest =>
        obtain ⟨completeFirst, completeRest⟩ := Bool.and_eq_true_iff.1 complete
        have first := fitsFields_part regular known
          (among part List.mem_cons_self) readFirst
          (inner part List.mem_cons_self showFirst completeFirst readFirst)
        have rest := ih (fun other mem => among other (List.mem_cons_of_mem _ mem))
          (fun other mem => inner other (List.mem_cons_of_mem _ mem)) showRest completeRest readRest
        have columns : registry.columnsIn format ctx (part :: parts) =
            registry.partColumns format ctx.breadcrumbs ctx.path part ++
              registry.columnsIn format ctx parts := List.flatMap_cons
        show Form.FitsFields _ _ (Form.ownFields (part.fields _ ++ Trace.fields parts _))
        simpa [columns] using first.append rest

theorem forall_values {type : StreamType} {ctx : Context} {generating : Bool}
    {holds : Value → Prop}
    (inner : ∀ {trace : Trace} {c d : Cursor}, trace.Reads registry generating type ctx c d →
      holds trace.value) {traces : List Trace} {c d : Cursor}
    (reads : Trace.ReadsAll registry generating type ctx c traces d) :
    ∀ value ∈ Trace.values traces, holds value := by
  induction traces generalizing c with
  | nil => exact List.forall_mem_nil _
  | cons trace traces ih =>
    cases reads with
    | cons first rest => exact List.forall_mem_cons.2 ⟨inner first, ih rest⟩

theorem forall_references {refs : List Int} {c d : Cursor} (references : References c refs d) :
    ∀ n ∈ refs, Bytes.Signed 4 n := by
  induction references with
  | nil => exact List.forall_mem_nil _
  | cons takes _ ih => exact List.forall_mem_cons.2 ⟨Scan.signed_of_signed takes, ih⟩

@[simp]
theorem length_values (traces : List Trace) : (Trace.values traces).length = traces.length := by
  induction traces with
  | nil => rfl
  | cons trace traces ih => exact congrArg (· + 1) ih

/-- a list that shows its elements has one that shows all of its own -/
theorem exists_shown {type : StreamType} {ctx : Context} {items : List Trace} {c d : Cursor}
    (reads : Trace.ReadsAll registry true type ctx c items d) (some_ : items ≠ [])
    (complete : Trace.completeAll items = true) :
    ∃ (shown : Trace) (e : Cursor), shown.Reads registry true type ctx c e ∧ shown.complete = true := by
  cases reads with
  | nil => exact absurd rfl some_
  | cons first rest => exact ⟨_, _, first, (Bool.and_eq_true_iff.1 complete).1⟩

/-- the elements of a list that shows them fit the form of their type -/
theorem fits_element {element : StreamType} {ctx : Context}
    (inner : ∀ {shown trace : Trace} {c d e f : Cursor},
      shown.Reads registry true element ctx c d → shown.complete = true →
      trace.Reads registry false element ctx e f →
        (registry.formOf format element ctx.breadcrumbs ctx.path).Fits trace.value)
    {items : List Trace}
    (complete : (element.primitive?.isSome || (!items.isEmpty && Trace.completeAll items)) = true)
    {c d : Cursor} (showing : Trace.ReadsAll registry true element ctx c items d) {trace : Trace}
    {e f : Cursor} (reads : trace.Reads registry false element ctx e f) :
    (registry.formOf format element ctx.breadcrumbs ctx.path).Fits trace.value := by
  rcases Bool.or_eq_true_iff.1 complete with number | complete
  · obtain ⟨p, primitive⟩ := Option.isSome_iff_exists.1 number
    obtain rfl := StreamType.eq_primitive primitive
    rw [formOf]
    cases reads with
    | number takes => exact .number (Primitive.holds_of_takes takes)
  · obtain ⟨some_, complete⟩ := Bool.and_eq_true_iff.1 complete
    have nonempty := List.isEmpty_eq_false_iff.1 (Bool.not_eq_true' _ ▸ some_)
    obtain ⟨shown, g, first, all⟩ := exists_shown showing nonempty complete
    exact inner first all reads

/-- a value of a type without further types in it fits the form of the type, whatever was shown -/
theorem fits_simple {type : StreamType} (simple : type.isSimple = true) {ctx : Context}
    {trace : Trace} {c d : Cursor} (reads : trace.Reads registry false type ctx c d) :
    (registry.formOf format type ctx.breadcrumbs ctx.path).Fits trace.value := by
  unfold formOf
  cases reads with
  | number takes => exact .number (Primitive.holds_of_takes takes)
  | tstring | stdString => exact .text rfl
  | head => exact .record .nil
  | datime takes | ref before takes behind =>
    exact .record (.cons (.number ⟨_, .unsigned rfl (Scan.lt_of_unsigned takes)⟩) .nil)
  | time before takes =>
    exact .record (.cons (.number ⟨_, .signed rfl (Scan.signed_of_signed takes)⟩) .nil)
  | @refArray _ _ _ _ _ _ _ _ _ _ refs before lead named count gap takes =>
    refine .record (.cons (.text rfl) (.cons (.number ⟨_, .signed rfl ?_⟩) (.cons (.list ?_) .nil)))
    · exact Scan.signed_of_signed count
    · intro item mem
      obtain ⟨n, there, rfl⟩ := List.mem_map.1 mem
      exact .number ⟨_, .signed rfl (forall_references takes n there)⟩
  | vector | array | map | object => cases simple

/-- where a complete entry has shown a type, every value of the type fits the form of the type -/
theorem fits_formOf (regular : registry.Regular) (type : StreamType) (ctx : Context) :
    ∀ {shown trace : Trace} {c d e f : Cursor},
      shown.Reads registry true type ctx c d → shown.complete = true →
      trace.Reads registry false type ctx e f →
        (registry.formOf format type ctx.breadcrumbs ctx.path).Fits trace.value := by
  induction type, ctx using registry.walk with
  | vector element ctx ih =>
    intro shown trace c d e f showing complete reads
    rw [formOf]
    cases showing with
    | vector beforeShown countShown allShown =>
      cases reads with
      | vector before count all =>
        refine .list (forall_values (fun inner => ?_) all)
        exact fits_element ih complete allShown inner
  | array element count ctx ih =>
    intro shown trace c d e f showing complete reads
    rw [formOf]
    cases showing with
    | array lengthShown allShown =>
      cases reads with
      | array length all =>
        refine .regular ?_ (forall_values (fun inner => ?_) all)
        · simp [length]
        · exact fits_element ih complete allShown inner
  | map key value ctx keys values =>
    intro shown trace c d e f showing complete reads
    rw [formOf]
    cases showing with
    | map beforeShown countShown sameShown keysShown valuesShown =>
      obtain ⟨some_, complete⟩ := Bool.and_eq_true_iff.1 complete
      obtain ⟨completeKeys, completeValues⟩ := Bool.and_eq_true_iff.1 complete
      cases reads with
      | map before count same allKeys allValues =>
        have someKeys := List.isEmpty_eq_false_iff.1 (Bool.not_eq_true' _ ▸ some_)
        have someValues := List.ne_nil_of_length_pos
          (sameShown ▸ List.length_pos_iff.2 someKeys)
        obtain ⟨key, _, readsKey, fullKey⟩ := exists_shown keysShown someKeys completeKeys
        obtain ⟨value, _, readsValue, fullValue⟩ :=
          exists_shown valuesShown someValues completeValues
        refine .map rfl (fun pair mem => ?_) (fun pair mem => ?_)
        · exact forall_values (fun inner => keys readsKey fullKey inner) allKeys _
            (List.of_mem_zip mem).1
        · exact forall_values (fun inner => values readsValue fullValue inner) allValues _
            (List.of_mem_zip mem).2
  | named name ctx ih =>
    intro shown trace c d e f showing complete reads
    rw [formOf_inClass]
    cases showing with
    | object outside knownShown takesShown chosenShown allShown =>
      cases reads with
      | object _ known takes chosen all =>
        obtain rfl := Option.some.inj (knownShown.symm.trans known)
        rw [regular.chosen known] at chosen chosenShown
        subst chosen chosenShown
        have parts := partsIn_eq (outside rfl) known
        rw [parts] at ih ⊢
        exact .record (fitsFields_parts regular (mem_of_latest? known).1 (fun _ mem => mem)
          (fun part mem => ih part mem) allShown complete all)
  | _ => exact fun _ _ reads => fits_simple rfl reads

end Registry

/-! ## baskets -/

namespace Interpretation

variable {interpretation : Interpretation}

/-- the values of entries are those of their traces -/
theorem forall_of_values {holds : Value → Prop}
    (inner : ∀ {trace : Trace} {c d : Cursor}, trace.Reads interpretation.registry false
      interpretation.type interpretation.context c d → holds trace.value)
    {list : List (Except Fault Bytes)} {values : List Value}
    (read : interpretation.values list = .ok values) : ∀ value ∈ values, holds value := by
  induction list generalizing values with
  | nil =>
    obtain rfl := Except.ok.inj read
    exact List.forall_mem_nil _
  | cons first rest ih =>
    obtain ⟨entry, value, others, rfl, one, after, rfl⟩ := of_values_cons read
    obtain ⟨trace, reads, rfl, -⟩ := interpretation.registry.read_traced interpretation.type none
      interpretation.context (Prod.ext one rfl)
    exact List.forall_mem_cons.2 ⟨inner reads, ih after⟩

end Interpretation

/-- **The form fits the data it was made from.**  Where there is one layout of each class, the form
of a model that a basket gives has no unknown content, and all values of the basket fit it. -/
theorem Interpretation.fits_of_discover {interpretation : Interpretation}
    (regular : interpretation.registry.Regular)
    (apart : Place.Apart (interpretation.registry.places interpretation.type interpretation.context))
    {basket : Basket} {m : Model} {values : List Value}
    (found : interpretation.discover basket = .ok (some m))
    (read : interpretation.interpret basket = .ok values) :
    m.form.known = true ∧ ∀ value ∈ values, m.form.Fits value := by
  obtain ⟨traces, ⟨list, entries, shows_⟩, complete, model⟩ := discover_shows found
  obtain ⟨_, made, -, form⟩ := model_of_traces regular apart shows_.reads shows_.ne_nil complete
  obtain rfl := Except.ok.inj (model.symm.trans made)
  obtain ⟨_, entriesToo, all⟩ := bind_ok read
  obtain rfl := Except.ok.inj (entries.symm.trans entriesToo)
  have context : interpretation.registry.formOf interpretation.options.indexFormat
      interpretation.type interpretation.context.breadcrumbs interpretation.context.path =
        interpretation.registry.formOf interpretation.options.indexFormat
          interpretation.type [] [] := rfl
  rw [form, ← context]
  obtain ⟨shown, last⟩ := Option.ne_none_iff_exists'.1
    (mt List.getLast?_eq_none_iff.1 shows_.ne_nil)
  obtain ⟨c, d, showing⟩ := shows_.reads shown (List.mem_of_getLast? last)
  have full := Plan.complete_of_entries (Option.mem_def.2 last) complete
  exact ⟨Registry.known_formOf _ _,
    forall_of_values (fun reads => Registry.fits_formOf regular _ _ showing full reads) all⟩

/-! ### events of several versions -/

/-- events, which held hits at first, then a byte, and now nothing -/
def events : Interpretation where
  type := .named "Event"
  registry :=
    { layouts := [{ name := "Event", version := 1, members := [⟨"hits", .vector (.named "Hit")⟩] },
        { name := "Hit", version := 1, members := [⟨"c", .primitive .uint8⟩] },
        { name := "Event", version := 2, members := [⟨"x", .primitive .uint8⟩] },
        { name := "Event", version := 3 }]
      ordered := by simp [Layout.precedes] }

/-- an event of the first version without hits -/
def emptyEvent : Bytes := #[0x40, 0, 0, 12, 0, 1] ++ #[0x40, 0, 0, 6, 0, 9, 0, 0, 0, 0]

/-- an event of the second version -/
def plainEvent : Bytes := #[0x40, 0, 0, 3, 0, 2, 5]

/-- a basket of some entries -/
def ofEntries (entries : List Bytes) : Basket where
  header := (oneEntry (Basket.joined entries)).header
  contents := some { data := Basket.joined entries, offsets := some (Basket.bounds 0 entries) }

@[simp] theorem entries_ofEntries (entries : List Bytes) :
    (ofEntries entries).entries = .ok (entries.map .ok) := Basket.entries_of_joined rfl rfl

/-- the generator behind the event without hits, at the start of the next entry -/
def afterEmpty : Generator := ((events.read emptyEvent (some {})).2.generator.getD {}).beginEntry

/-- the event without hits leaves them open, and the next event makes the model all the same -/
theorem discover_events : ∃ m values,
    events.discover (ofEntries [emptyEvent, plainEvent]) = .ok (some m) ∧
      events.interpret (ofEntries [emptyEvent, plainEvent]) = .ok values ∧
      m.form.known = false := by
  have readable : (events.interpret (ofEntries [emptyEvent, plainEvent])).isOk = true := by
    decide +kernel
  have first : (events.read emptyEvent (some {})).1.isOk = true := by decide +kernel
  have open_ : (events.read emptyEvent (some {})).2.generator.map (·.incomplete) = some true := by
    decide +kernel
  have second : (events.read plainEvent (some afterEmpty)).1.isOk = true := by decide +kernel
  have tree : (events.read plainEvent (some afterEmpty)).2.generator.map (fun g =>
      (g.incomplete, (Node.Structural.form g.node).toOption.map Form.known)) =
        some (false, some false) := by
    decide +kernel
  obtain ⟨values, read⟩ := exists_of_isOk readable
  obtain ⟨_, _, g, readFirst⟩ := Interpretation.exists_of_isOk first
  have after : afterEmpty = g.beginEntry := by
    unfold afterEmpty
    rw [readFirst]
    rfl
  rw [readFirst] at open_
  rw [after] at second tree
  obtain ⟨_, _, h, readSecond⟩ := Interpretation.exists_of_isOk second
  rw [readSecond] at tree
  obtain ⟨complete, unknown⟩ := Prod.mk.inj (Option.some.inj tree)
  rcases h.exists_model_or with ⟨m, made⟩ | ⟨label, cause, failed, -⟩
  · refine ⟨m, values, ?_, read, ?_⟩
    · rw [Interpretation.discover_of_entries (entries_ofEntries _)]
      show events.discoverFrom {} [.ok emptyEvent, .ok plainEvent] = _
      rw [Interpretation.discoverFrom_cons (g := {}) readFirst, if_pos (Option.some.inj open_),
        Interpretation.discoverFrom_cons readSecond, if_neg (Bool.eq_false_iff.1 complete), made]
      rfl
    · rw [← Node.form_eq_structural, (Generator.model_eq_ok made).1] at unknown
      exact Option.some.inj unknown
  · rw [← Node.form_eq_structural, failed] at unknown
    cases unknown

/-- the name without hits leaves its hits open, the next name makes the model, and both fit it -/
theorem fits_of_discover_hits : afterNoHits.incomplete = true ∧ ∃ m values,
    hitsByName.discover (ofEntries [noHits, oneHit]) = .ok (some m) ∧
      hitsByName.interpret (ofEntries [noHits, oneHit]) = .ok values ∧ values.length = 2 ∧
      m.form.known = true ∧ ∀ value ∈ values, m.form.Fits value := by
  have open_ : afterNoHits.incomplete = true := by decide +kernel
  have complete : afterOneHit.incomplete = false := by decide +kernel
  have readable : (hitsByName.interpret (ofEntries [noHits, oneHit])).isOk = true := by
    decide +kernel
  have two : (hitsByName.interpret (ofEntries [noHits, oneHit])).map List.length = .ok 2 := by
    decide +kernel
  obtain ⟨values, read⟩ := exists_of_isOk readable
  rw [read] at two
  obtain ⟨traces, length, reads, same⟩ := (readsInto_noHits.append readsInto_oneHit).traced
  obtain ⟨m, made, -⟩ := Interpretation.model_of_traces regular_hitsByName apart_hitsByName reads
    (List.ne_nil_of_length_pos (length ▸ Nat.succ_pos _)) (same ▸ complete)
  rw [← same] at made
  obtain ⟨_, _, readFirst⟩ := readsInto_noHits.read
  obtain ⟨_, _, readSecond⟩ := readsInto_oneHit.read
  have found : hitsByName.discover (ofEntries [noHits, oneHit]) = .ok (some m) := by
    rw [Interpretation.discover_of_entries (entries_ofEntries _)]
    show hitsByName.discoverFrom {} [.ok noHits, .ok oneHit] = _
    rw [Interpretation.discoverFrom_cons readFirst, if_pos open_,
      Interpretation.discoverFrom_cons readSecond, if_neg (Bool.eq_false_iff.1 complete), made]
    rfl
  exact ⟨open_, m, values, found, read, Except.ok.inj two,
    Interpretation.fits_of_discover regular_hitsByName apart_hitsByName found read⟩

end Baskets
