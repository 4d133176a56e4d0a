import Baskets.Interpretation
import Baskets.Proofs.Plan.Kinds
import Baskets.Proofs.Reading.Tidy
import Baskets.Proofs.Reachable

/-!
# Reads keep the books of the generator

Reader by reader, a read with a generator is tidy.  What can be the host of a value are the root,
the part of a base class, and every column that has another name than the columns of the value; so
when no two paths at which values of a type can be read have the same key (`Registry.KeysApart`),
everything that is read finds its host.  A value can be read inside another by any version of a
class, so `Registry.inside` goes through all layouts.

The main result is `Registry.books_kept`: a success leaves the active node and the saved ones as
they were, a failure leaves them below, the generator itself never fails, and nothing that was added
is ever lost.
-/

namespace Baskets

/-! ## values inside values -/

namespace Registry

variable {registry : Registry} {type : StreamType} {ctx : Context}

/-- the values read directly inside a value, with their contexts; objects by all layouts of their
class, unless they are inside an object of the class -/
def inside (registry : Registry) : StreamType × Context → List (StreamType × Context)
  | (.vector element, ctx) => [(element, ctx.items)]
  | (.array element _, ctx) => [(element, ctx.elements)]
  | (.map key value, ctx) => [(key, ctx.mapKeys), (value, ctx.mapValues)]
  | (.named name, ctx) =>
    if name ∈ ctx.breadcrumbs then [] else
      (registry.ofClass name).flatMap fun layout =>
        layout.parts.map fun part => (part.type, part.context (ctx.inClass name))
  | _ => []

/-- the values that can come up in reading a value of the type in the context -/
def Occurs (registry : Registry) (type : StreamType) (ctx : Context) :
    StreamType × Context → Prop :=
  Relation.ReflTransGen (fun outer value => value ∈ registry.inside outer) (type, ctx)

/-- values at different paths have different keys -/
def KeysApart (registry : Registry) (type : StreamType) (ctx : Context) : Prop :=
  ∀ first second, registry.Occurs type ctx first → registry.Occurs type ctx second →
    first.2.key "" = second.2.key "" → first.2.path = second.2.path

theorem path_of_mem_inside {value : StreamType × Context}
    (mem : value ∈ registry.inside (type, ctx)) : ∃ slot, value.2.path = ctx.path ++ [slot] := by
  cases type with
  | vector element => exact ⟨_, by rw [List.mem_singleton.1 mem]; rfl⟩
  | array element count => exact ⟨_, by rw [List.mem_singleton.1 mem]; rfl⟩
  | map key value =>
    rcases List.mem_cons.1 mem with rfl | mem
    · exact ⟨_, rfl⟩
    · exact ⟨_, by rw [List.mem_singleton.1 mem]; rfl⟩
  | named name =>
    unfold inside at mem
    dsimp only at mem
    split at mem
    · cases mem
    · obtain ⟨layout, -, there⟩ := List.mem_flatMap.1 mem
      obtain ⟨part, -, rfl⟩ := List.mem_map.1 there
      exact ⟨_, part.path_context _⟩
  | _ => cases mem

namespace KeysApart

theorem inner (apart : registry.KeysApart type ctx) {element : StreamType} {slot : Context}
    (mem : (element, slot) ∈ registry.inside (type, ctx)) : registry.KeysApart element slot :=
  fun first second here there => apart first second (.head mem here) (.head mem there)

/-- what is read inside a value has columns of other names -/
theorem nodeName_ne (apart : registry.KeysApart type ctx) {element : StreamType} {slot : Context}
    (mem : (element, slot) ∈ registry.inside (type, ctx)) :
    ctx.nodeName "" ≠ slot.nodeName "" := by
  intro same
  have keys : ctx.key "" = slot.key "" :=
    Place.placeKey_eq_of_name_eq (p := (ctx.path, "")) (q := (slot.path, "")) same
  have paths := apart (type, ctx) (element, slot) .refl (.single mem) keys
  obtain ⟨name, longer⟩ := path_of_mem_inside mem
  have lengths := congrArg List.length (paths.trans longer)
  rw [List.length_append] at lengths
  simp at lengths

/-- a list of values that has all values inside its own shows all that can come up -/
theorem of_closed (values : List (StreamType × Context)) (here : (type, ctx) ∈ values)
    (closed : ∀ outer ∈ values, ∀ value ∈ registry.inside outer, value ∈ values)
    (apart : ∀ first ∈ values, ∀ second ∈ values,
      first.2.key "" = second.2.key "" → first.2.path = second.2.path) :
    registry.KeysApart type ctx := by
  have all : ∀ value, registry.Occurs type ctx value → value ∈ values := by
    intro value occurs
    induction occurs with
    | refl => exact here
    | tail _ mem ih => exact closed _ ih _ mem
  exact fun first second one other => apart first (all first one) second (all second other)

end KeysApart

end Registry

/-! ## hosts -/

/-- whether a node of the kind can be the host of a value at this place -/
def Context.Hosts (ctx : Context) : NodeKind → Prop
  | .top | .base _ => True
  | .field name => name ≠ ctx.nodeName ""
  | _ => False

/-- the hosts of a value of the type, where the keys of all that is read are apart -/
def Registry.Fits (registry : Registry) (type : StreamType) (ctx : Context) (kind : NodeKind) :
    Prop :=
  registry.KeysApart type ctx ∧ ctx.Hosts kind

namespace Reading

variable {registry : Registry} {host inner : NodeKind → Prop}

namespace Tidy

/-! ## headers -/

theorem memberwise {α : Type} (what : String) :
    Tidy host (Reading.memberwise what : Reading α) :=
  fun _ _ => .failed rfl List.suffix_rfl fun hosted => hosted.rooted

theorem containerHeader (what : String) (ctx : Context) :
    Tidy host (Reading.containerHeader what ctx) := by
  unfold Reading.containerHeader
  split
  · exact .pure _
  · refine .bind (.measured .versionHeader) fun (header, skipped) => ?_
    dsimp only
    split
    · exact .bind (memberwise what) fun _ => .pure _
    · exact .pure _

theorem checkEnd (what : String) (start : Nat) (header : Option VersionHeader) :
    Tidy host (Reading.checkEnd what start header) := by
  unfold Reading.checkEnd
  split
  · exact .pure _
  · refine .bind (.scan .pos) fun actual => ?_
    dsimp only
    split
    · exact .throw rfl
    · exact .pure _

theorem container {α : Type} (what : String) (ctx : Context) {body : Nat → Reading α}
    (within : ∀ skipped, Tidy host (body skipped)) :
    Tidy host (Reading.container what ctx body) :=
  .bind (.scan .pos) fun _ => .bind (containerHeader what ctx) fun (_, skipped) =>
    .bind (within skipped) fun _ => .bind (checkEnd what _ _) fun _ => .pure _

/-! ## types of a fixed layout -/

section
variable (field : Option String) (ctx : Context)

/-- a column is added below its host -/
theorem column (info : NodeInfo) (kind : info.kind = .field (ctx.nodeName "")) :
    Tidy ctx.Hosts (Reading.add info) :=
  add info fun own hosts same => by
    rw [same, kind] at hosts
    exact hosts rfl

/-- a column with a form of its own making is added below any host -/
theorem prebuilt (info : NodeInfo) (kind : info.kind = .prebuilt (ctx.nodeName "")) :
    Tidy ctx.Hosts (Reading.add info) :=
  add info fun own hosts same => by
    rw [same, kind] at hosts
    exact hosts

theorem primitive (p : Primitive) : Tidy ctx.Hosts (Reading.primitive p field ctx) :=
  .bind (column ctx _ rfl) fun _ => .scan (.primitive p)

theorem text (kind : TextKind) : Tidy ctx.Hosts (Reading.text kind field ctx) := by
  have body : ∀ skipped, Tidy ctx.Hosts (do
      Reading.add (Contribution.text skipped field ctx)
      return Value.text (← Reading.scan Scan.string)) :=
    fun _ => .bind (column ctx _ rfl) fun _ => .bind (.scan .string) fun _ => .pure _
  cases kind with
  | tstring => exact body 0
  | stdString =>
    have whole := container "std::string" ctx body
    exact whole

theorem objectHead : Tidy ctx.Hosts (Reading.objectHead field ctx) := by
  have head : (if ctx.objectHead then Scan.objectHead else Pure.pure (0, 0)).Plain := by
    split
    · exact .objectHead
    · exact .pure _
  refine .bind (.measured head) fun ((_, _), skipped) => ?_
  have enters : ∀ g : Generator, Enters ctx.Hosts
      (fun kind => kind = .start (ctx.label "TObject" "model")) g
      (g.enter (Contribution.objectStart skipped field ctx)) :=
    enters_enter _ (fun kind hosts same => by
      rw [same] at hosts
      exact hosts) fun _ _ => rfl
  refine entering enters (.bind (add _ fun kind is => ?_) fun _ => .leave (.pure _))
  rw [is]
  exact fun same => nomatch same

theorem datime : Tidy ctx.Hosts (Reading.datime field ctx) :=
  .bind (prebuilt ctx _ rfl) fun _ => .bind (.scan (.unsigned 4)) fun _ => .pure _

theorem time : Tidy ctx.Hosts (Reading.time field ctx) :=
  container "TTime" ctx fun _ => .bind (prebuilt ctx _ rfl) fun _ =>
    .bind (.scan (.signed 8)) fun _ => .pure _

theorem ref : Tidy ctx.Hosts (Reading.ref field ctx) :=
  .bind (prebuilt ctx _ rfl) fun _ => .bind (.scan (.skip 2)) fun _ =>
    .bind (.scan (.unsigned 4)) fun _ => .bind (.scan (.skip 6)) fun _ => .pure _

theorem refArray : Tidy ctx.Hosts (Reading.refArray field ctx) := by
  refine container "TRefArray" ctx fun skipped => ?_
  refine .bind (prebuilt ctx _ rfl) fun _ => .bind (.scan (.skip 10)) fun _ => ?_
  refine .bind (.scan .string) fun name => .bind (.scan (.signed 4)) fun size => ?_
  refine .bind (.scan (.skip 6)) fun _ => ?_
  have references : Tidy ctx.Hosts (do
      let refs ← Reading.times size.toNat do return Value.int (← Reading.scan (Scan.signed 4))
      return Value.record [("fName", .text name), ("fSize", .int size), ("refs", .list refs)]) :=
    .bind (.times (.bind (.scan (.signed 4)) fun _ => .pure _) _) fun _ => .pure _
  dsimp only
  split
  · exact .bind (.throw rfl) fun _ => references
  · exact references

end

/-! ## types of other types -/

/-- the elements of a list, from the node of the list to what comes after them -/
theorem listed {β : Type} (type : StreamType) (count : Nat) (info : NodeInfo)
    {reading : Reading Value} {rest : List Value → Reading β}
    (differs : ∀ kind, host kind → kind ≠ info.kind)
    (within : ∀ kind, host kind → inner info.kind) (one : Tidy inner reading)
    (outer : ∀ items, Tidy host (rest items)) :
    Tidy host (do
      addList type count info
      let items ← Reading.elements type count reading
      leaveList type
      rest items) := by
  unfold addList leaveList Reading.elements
  cases type.primitive? with
  | some p =>
    exact .bind (.add info differs) fun _ =>
      .bind (.times (.scan (.primitive p)) count) fun items => .bind (.pure _) fun _ => outer items
  | none =>
    refine .entering (fun g => ?_) <| .bind (.times one count) fun items => .leave (outer items)
    have enters := enters_enter info differs within g
    dsimp only
    split
    · exact enters.markIncomplete
    · exact enters

/-- tidy for the hosts of a value of the type, for every field and context -/
def Throughout (registry : Registry) (type : StreamType) (reader : Reader) : Prop :=
  ∀ field ctx, Tidy (registry.Fits type ctx) (reader field ctx)

theorem throughout_of_hosts {type : StreamType} {reader : Reader}
    (tidy : ∀ field (ctx : Context), Tidy ctx.Hosts (reader field ctx)) :
    Throughout registry type reader :=
  fun field ctx => (tidy field ctx).mono fun _ fits => fits.2

end Tidy

end Reading

namespace Registry.Fits

variable {registry : Registry} {type : StreamType} {ctx : Context} {kind : NodeKind}

/-- a host is no column of the value -/
theorem ne_field (fits : registry.Fits type ctx kind) : kind ≠ .field (ctx.nodeName "") := by
  rintro rfl
  exact fits.2 rfl

/-- the column of a value is a host of the values inside -/
theorem field_inside (fits : registry.Fits type ctx kind) {element : StreamType} {slot : Context}
    (mem : (element, slot) ∈ registry.inside (type, ctx)) :
    registry.Fits element slot (.field (ctx.nodeName "")) :=
  ⟨fits.1.inner mem, fits.1.nodeName_ne mem⟩

end Registry.Fits

namespace Reading

variable {registry : Registry} {host inner : NodeKind → Prop}

namespace Tidy

theorem vector {element : StreamType} {reader : Reader}
    (within : Throughout registry element reader) :
    Throughout registry (.vector element) (Reading.vector element reader) := by
  intro field ctx
  refine container "std::vector" ctx fun skipped => .bind (.scan (.unsigned 4)) fun count => ?_
  have kind := Plan.kind_vector element skipped field ctx
  refine listed element count _ (fun own fits => ?_) (fun own fits => ?_) (within none ctx.items)
    fun _ => .pure _
  · rw [kind]
    exact fits.ne_field
  · rw [kind]
    exact fits.field_inside List.mem_cons_self

theorem array {element : StreamType} (count : UInt64) {reader : Reader}
    (within : Throughout registry element reader) :
    Throughout registry (.array element count) (Reading.array element count.toNat reader) := by
  intro field ctx
  have kind := Plan.kind_array element count.toNat field ctx
  refine listed element count.toNat _ (fun own fits => ?_) (fun own fits => ?_)
    (within field ctx.elements) fun _ => .pure _
  · rw [kind]
    exact fits.ne_field
  · rw [kind]
    exact fits.field_inside List.mem_cons_self

theorem mapHeader (ctx : Context) : Tidy host (Reading.mapHeader ctx) := by
  unfold Reading.mapHeader
  split
  · exact .pure _
  · refine .bind (.measured .versionHeader) fun (header, skipped) => ?_
    have rest : Tidy host (do
        Reading.scan (Scan.skip 6)
        return (some header, skipped + 6)) := .bind (.scan (.skip 6)) fun _ => .pure _
    dsimp only
    split
    · exact .bind (.throw rfl) fun _ => rest
    · exact rest

/-- the column of a map, a host of the keys and of the values -/
def InMap (registry : Registry) (key value : StreamType) (ctx : Context) (kind : NodeKind) : Prop :=
  registry.Fits key ctx.mapKeys kind ∧ registry.Fits value ctx.mapValues kind

theorem map {key value : StreamType} {keyReader valueReader : Reader}
    (keys : Throughout registry key keyReader) (values : Throughout registry value valueReader) :
    Throughout registry (.map key value) (Reading.map keyReader valueReader) := by
  intro field ctx
  refine .bind (.scan .pos) fun start => .bind (mapHeader ctx) fun (header, skipped) => ?_
  refine .bind (.scan (.unsigned 4)) fun count => ?_
  have enters : ∀ g : Generator, Enters (registry.Fits (.map key value) ctx)
      (InMap registry key value ctx) g (g.enter (Contribution.map skipped field ctx)) :=
    enters_enter _ (fun _ fits => fits.ne_field) fun _ fits =>
      ⟨fits.field_inside List.mem_cons_self,
        fits.field_inside (List.mem_cons_of_mem _ List.mem_cons_self)⟩
  have oneKey : Tidy (InMap registry key value ctx) (keyReader none ctx.mapKeys) :=
    (keys none ctx.mapKeys).mono fun _ inMap => inMap.1
  have oneValue : Tidy (InMap registry key value ctx) (valueReader none ctx.mapValues) :=
    (values none ctx.mapValues).mono fun _ inMap => inMap.2
  refine .entering (fun g => ?_) <| .bind (.looping 0 _ (.times oneKey count)) fun _ =>
    .bind (.looping 1 _ (.times oneValue count)) fun _ =>
    .leave (.bind (checkEnd "std::map" start header) fun _ => .pure _)
  dsimp only
  split
  · exact (enters g).markIncomplete
  · exact enters g

/-! ## classes -/

theorem openObject (registry : Registry) (className : String) (ctx : Context) :
    Tidy host (Reading.openObject registry className ctx) := by
  intro c g
  simp only [Reading.openObject, run_bind, run_generating, carry_ok]
  cases ctx.breadcrumbs.contains className with
  | true => exact .failed rfl List.suffix_rfl fun hosted => hosted.rooted
  | false =>
    cases registry.latest? className with
    | none => exact .failed rfl List.suffix_rfl fun hosted => hosted.rooted
    | some latest =>
      refine bind (.scan .pos) (fun start => .bind (.measured .versionHeader) fun opened => ?_) c g
      obtain ⟨header, skipped⟩ := opened
      dsimp only
      split
      · exact .bind (memberwise className) fun _ => .pure _
      · exact .pure _

/-- the record of an object, where the values inside it have their hosts -/
def InObject (registry : Registry) (className : String) (outer : Context) (kind : NodeKind) :
    Prop :=
  kind = .field (outer.nodeName "") ∧ registry.KeysApart (.named className) outer

section
variable {className : String} {outer : Context} {layout : Layout}
  {reader : StreamType → Reader}

theorem mem_inside_of_part (outside : className ∉ outer.breadcrumbs)
    (known : layout ∈ registry.ofClass className) {part : Part} (mem : part ∈ layout.parts) :
    (part.type, part.context (outer.inClass className)) ∈
      registry.inside (.named className, outer) := by
  unfold Registry.inside
  dsimp only
  rw [if_neg outside]
  exact List.mem_flatMap.2 ⟨layout, known, List.mem_map_of_mem mem⟩

theorem bases (within : ∀ type, Throughout registry type (reader type))
    (outside : className ∉ outer.breadcrumbs) (known : layout ∈ registry.ofClass className)
    (names : List String) (sub : ∀ name ∈ names, Part.base name ∈ layout.parts) :
    Tidy (InObject registry className outer) (Reading.bases (fun base => reader (.ofClass base))
      (outer.inClass className) names) := by
  induction names with
  | nil => exact .pure []
  | cons base rest ih =>
    have there := mem_inside_of_part outside known (sub base List.mem_cons_self)
    refine .entering (enters_enter (Contribution.base base _) (fun kind inObject => ?_)
      fun kind inObject => ?_) <| .bind (within (.ofClass base) none _) fun _ =>
        .leave (.bind (ih fun name mem => sub name (List.mem_cons_of_mem _ mem)) fun _ => .pure _)
    · rw [inObject.1]
      exact fun same => nomatch same
    · exact ⟨inObject.2.inner there, trivial⟩

theorem members (within : ∀ type, Throughout registry type (reader type))
    (outside : className ∉ outer.breadcrumbs) (known : layout ∈ registry.ofClass className)
    (slots : List Member) (sub : ∀ member ∈ slots, Part.member member ∈ layout.parts) :
    Tidy (InObject registry className outer)
      (Reading.members reader (outer.inClass className) slots) := by
  induction slots with
  | nil => exact .pure []
  | cons member rest ih =>
    have there := mem_inside_of_part outside known (sub member List.mem_cons_self)
    have one := (within member.type (some member.name) _).mono fun kind
        (inObject : InObject registry className outer kind) => by
      rw [inObject.1]
      exact ⟨inObject.2.inner there, inObject.2.nodeName_ne there⟩
    exact .bind one fun _ => .bind (ih fun name mem => sub name (List.mem_cons_of_mem _ mem))
      fun _ => .pure _

theorem body (within : ∀ type, Throughout registry type (reader type)) {opening : Opening}
    (outside : className ∉ outer.breadcrumbs)
    (known : opening.layout ∈ registry.ofClass className) (field : Option String) :
    Tidy (registry.Fits (.named className) outer)
      (Reading.body reader className opening field outer) := by
  have enters : ∀ g : Generator, Enters (registry.Fits (.named className) outer)
      (InObject registry className outer) g (Contribution.intoObject className opening.skipped
        opening.otherVersion field (outer.inClass className) g) :=
    enters_intoObject _ _ _ _ _ (fun kind fits same => by
      have hosts := fits.2
      rw [same] at hosts
      exact hosts) fun _ fits => ⟨rfl, fits.1⟩
  refine .entering enters <| .bind (bases within outside known _ fun name mem => ?_) fun _ =>
    .bind (members within outside known _ fun member mem => ?_) fun _ =>
    .leave (.bind (checkEnd className opening.start _) fun _ => .pure _)
  · exact List.mem_append_left _ (List.mem_map_of_mem mem)
  · exact List.mem_append_right _ (List.mem_map_of_mem mem)

end

theorem streamed {readNamed : String → Reader}
    (within : ∀ name, Throughout registry (.named name) (readNamed name)) (type : StreamType) :
    Throughout registry type (Reading.streamed readNamed type) := by
  induction type with
  | primitive p => exact throughout_of_hosts fun field ctx => primitive field ctx p
  | text kind => exact throughout_of_hosts fun field ctx => text field ctx kind
  | object => exact throughout_of_hosts objectHead
  | datime => exact throughout_of_hosts datime
  | time => exact throughout_of_hosts time
  | ref => exact throughout_of_hosts ref
  | refArray => exact throughout_of_hosts refArray
  | vector element ih => exact vector ih
  | array element count ih => exact array count ih
  | map key value keys values => exact map keys values
  | named name => exact within name

theorem named (registry : Registry) (depth : Nat) (className : String) :
    Throughout registry (.named className) (Reading.named registry depth className) := by
  induction depth generalizing className with
  | zero =>
    intro field ctx
    exact .bind (openObject registry className ctx) fun _ =>
      .scan (.bind .get fun _ => .throw rfl)
  | succ depth ih =>
    intro field ctx
    refine .bind_of (openObject registry className ctx) fun opening ⟨c, g, progress, opened⟩ => ?_
    obtain ⟨latest, header, outside, -⟩ := openObject_ok registry opened
    exact body (streamed ih) (outside rfl) (layout_mem_of_openObject opened) field

end Tidy

end Reading

/-! ## entries -/

/-- a read of a value of any type is tidy for the hosts of the type -/
theorem Registry.tidy_read (registry : Registry) (type : StreamType) (field : Option String)
    (ctx : Context) : Reading.Tidy (registry.Fits type ctx) (registry.read type field ctx) := by
  intro c g
  have named := Reading.Tidy.named registry (c.remaining / 2)
  exact Reading.Tidy.streamed named type field ctx c g

namespace Interpretation

variable {interpretation : Interpretation}

/-- the generator after reads of entries, each begun anew wherever the one before stopped -/
def grown (interpretation : Interpretation) : Generator → List Bytes → Generator
  | g, [] => g
  | g, entry :: rest =>
    let (_, progress) := interpretation.read entry (some g.beginEntry)
    interpretation.grown (progress.generator.getD g.beginEntry) rest

/-- one entry after the other loses nothing, whether or not they can be read -/
theorem rooted_grown (apart : interpretation.registry.KeysApart interpretation.type
      (.ofOptions interpretation.options)) (entries : List Bytes) {g : Generator}
    (rooted : g.Rooted) : (interpretation.grown g entries).Rooted := by
  induction entries generalizing g with
  | nil => exact rooted
  | cons entry rest ih =>
    obtain ⟨begun, top⟩ := rooted.beginEntry
    have hosted : Reading.Hosted (interpretation.registry.Fits interpretation.type
        (.ofOptions interpretation.options)) g.beginEntry := ⟨begun, apart, top ▸ trivial⟩
    have outcome : Reading.Outcome _ g.beginEntry
        (interpretation.read entry (some g.beginEntry)) :=
      interpretation.registry.tidy_read interpretation.type none _ { data := entry } g.beginEntry
    show (interpretation.grown
      ((interpretation.read entry (some g.beginEntry)).2.generator.getD g.beginEntry) rest).Rooted
    generalize interpretation.read entry (some g.beginEntry) = last at outcome ⊢
    cases outcome with
    | done _ after => exact ih (after hosted)
    | failed _ _ after => exact ih (after hosted)

end Interpretation

/-- **The books are kept.**  A read with a generator leaves the active node and the saved ones as
they were when it succeeds; when it fails, the nodes that were saved are still saved below the
others, and the fault is not the generator's own.  And where no two paths that come up in reading a
type have the same key, no node is ever lost, whatever entries are read one after the other into a
new generator, and whether or not they can be read. -/
theorem Registry.books_kept (registry : Registry) (type : StreamType) :
    (∀ (field : Option String) (ctx : Context) (c : Cursor) (g : Generator),
      let last := (registry.read type field ctx).run { cursor := c, generator := some g }
      ∃ h, last.2.generator = some h ∧
        (∀ value, last.1 = .ok value → h.active = g.active ∧ h.saved = g.saved) ∧
        ∀ fault, last.1 = .error fault → g.saved <:+ h.saved ∧ fault.ofGeneration = false) ∧
    ∀ options : ReadOptions, registry.KeysApart type (.ofOptions options) →
      ∀ entries : List Bytes,
        (({ type, registry, options } : Interpretation).grown {} entries).orphaned = 0 := by
  refine ⟨?_, fun options apart entries => ?_⟩
  · intro field ctx c g last
    have outcome : Reading.Outcome _ g last := registry.tidy_read type field ctx c g
    generalize last = last at outcome ⊢
    cases outcome with
    | done keeps =>
      refine ⟨_, rfl, fun value _ => ⟨keeps.place.active, keeps.place.saved⟩, ?_⟩
      intro fault failed
      cases failed
    | failed plain below =>
      refine ⟨_, rfl, fun value read => ?_, fun fault failed => ?_⟩
      · cases read
      · cases failed
        exact ⟨below, plain⟩
  · have rooted : ({ type, registry, options } : Interpretation).grown {} entries |>.Rooted :=
      Interpretation.rooted_grown apart entries Generator.rooted_new
    exact rooted.complete

/-! ### tracks of two versions -/

/-- the values that come up down to some depth -/
def Registry.valuesWithin (registry : Registry) :
    (depth : Nat) → StreamType × Context → List (StreamType × Context)
  | 0, value => [value]
  | depth + 1, value => value :: (registry.inside value).flatMap (registry.valuesWithin depth)

/-- tracks are lists of hits, in the second version with marks by name -/
def tracks : Registry where
  layouts :=
    [{ name := "Hit", version := 1, members := [⟨"x", .primitive .int32⟩] },
      { name := "Track", version := 1, members := [⟨"hits", .vector (.named "Hit")⟩] },
      { name := "Track", version := 2, bases := ["TObject"],
        members := [⟨"hits", .vector (.named "Hit")⟩,
          ⟨"marks", .map (.text .tstring) (.array (.primitive .uint8) 2)⟩] }]
  ordered := by simp [Layout.precedes]

/-- a list of one track of the first version, which has no hits -/
def oldTrack : Bytes := #[0, 1, 0, 0, 0, 1] ++ #[0, 1] ++ #[0, 9, 0, 0, 0, 0]

/-- a list of one track of the second version, with one hit and one mark -/
def newTrack : Bytes :=
  #[0, 1, 0, 0, 0, 1] ++ #[0, 2] ++ #[0, 1, 0, 0, 0, 0, 0, 0, 0, 0] ++
    #[0, 9, 0, 0, 0, 1] ++ #[0, 1, 0, 0, 0, 5] ++
    #[0x40, 0, 0, 16, 0x40, 9, 0, 0, 0, 0, 0, 0, 0, 0, 0, 1] ++ #[1, 97] ++ #[7, 8]

theorem books_kept_tracks :
    let interpretation : Interpretation := { type := .vector (.named "Track"), registry := tracks }
    tracks.KeysApart (.vector (.named "Track")) (.ofOptions {}) ∧
    (interpretation.read oldTrack (some {})).1.isOk = true ∧
    (interpretation.read newTrack (some {})).1.isOk = true ∧
    (interpretation.read (newTrack.extract 0 40) (some {})).1.isOk = false ∧
    (interpretation.grown {} [oldTrack, newTrack.extract 0 40, newTrack]).orphaned = 0 := by
  intro interpretation
  have apart : tracks.KeysApart (.vector (.named "Track")) (.ofOptions {}) :=
    .of_closed (tracks.valuesWithin 6 (.vector (.named "Track"), .ofOptions {}))
      (by decide +kernel) (by decide +kernel) (by decide +kernel)
  exact ⟨apart, by decide +kernel, by decide +kernel, by decide +kernel,
    (tracks.books_kept (.vector (.named "Track"))).2 {} apart _⟩

end Baskets
