import Baskets.Proofs.Reading.Mirror

/-!
# Every type is read the same with a generator

Reader by reader, what is read does not depend on whether a decoder is built at the same time.  The
lemmas follow the readers; a reader of a type made of other types is faithful if the readers of
those are, and the depth of nested objects is gone through from the inside.  The one answer that
depends on the generator is that a decoder cannot be generated.
-/

namespace Baskets

namespace Reading

open Generator (SamePlace Entered)

namespace Faithful

/-! ## headers -/

theorem memberwise {α : Type} (what : String) : Faithful (Reading.memberwise what : Reading α) :=
  fun _ _ => .refused

theorem containerHeader (what : String) (ctx : Context) :
    Faithful (Reading.containerHeader what ctx) := by
  unfold Reading.containerHeader
  split
  · exact .pure _
  · refine .bind (.measured _) fun (header, skipped) => ?_
    dsimp only
    split
    · exact .bind (memberwise what) fun _ => .pure _
    · exact .pure _

theorem checkEnd (what : String) (start : Nat) (header : Option VersionHeader) :
    Faithful (Reading.checkEnd what start header) := by
  unfold Reading.checkEnd
  split
  · exact .pure _
  · refine .bind (.scan _) fun actual => ?_
    dsimp only
    split
    · exact .throw _
    · exact .pure _

theorem container {α : Type} (what : String) (ctx : Context) {body : Nat → Reading α}
    (inner : ∀ skipped, Faithful (body skipped)) : Faithful (Reading.container what ctx body) :=
  .bind (.scan _) fun _ => .bind (containerHeader what ctx) fun (_, skipped) =>
    .bind (inner skipped) fun _ => .bind (checkEnd what _ _) fun _ => .pure _

/-! ## types of a fixed layout -/

theorem primitive (p : Primitive) (field : Option String) (ctx : Context) :
    Faithful (Reading.primitive p field ctx) :=
  .bind (.add _) fun _ => .scan _

theorem text (kind : TextKind) (field : Option String) (ctx : Context) :
    Faithful (Reading.text kind field ctx) := by
  have body : ∀ skipped, Faithful (do
      Reading.add (Contribution.text skipped field ctx)
      return Value.text (← Reading.scan Scan.string)) :=
    fun _ => .bind (.add _) fun _ => .bind (.scan _) fun _ => .pure _
  cases kind with
  | tstring => exact body 0
  | stdString =>
    have whole := container "std::string" ctx body
    exact whole

theorem objectHead (field : Option String) (ctx : Context) :
    Faithful (Reading.objectHead field ctx) :=
  .bind (.measured _) fun ((_, _), _) =>
    .entering (fun g => Generator.entered_enter g _) <|
      .bind (.add _) fun _ => .leave (.pure _)

theorem datime (field : Option String) (ctx : Context) : Faithful (Reading.datime field ctx) :=
  .bind (.add _) fun _ => .bind (.scan _) fun _ => .pure _

theorem time (field : Option String) (ctx : Context) : Faithful (Reading.time field ctx) :=
  container "TTime" ctx fun _ => .bind (.add _) fun _ => .bind (.scan _) fun _ => .pure _

theorem ref (field : Option String) (ctx : Context) : Faithful (Reading.ref field ctx) :=
  .bind (.add _) fun _ => .bind (.scan _) fun _ => .bind (.scan _) fun _ =>
    .bind (.scan _) fun _ => .pure _

theorem refArray (field : Option String) (ctx : Context) : Faithful (Reading.refArray field ctx) := by
  refine container "TRefArray" ctx fun skipped => ?_
  refine .bind (.add _) fun _ => .bind (.scan _) fun _ => .bind (.scan _) fun name => ?_
  refine .bind (.scan _) fun size => .bind (.scan _) fun _ => ?_
  have references : Faithful (do
      let refs ← Reading.times size.toNat do return Value.int (← Reading.scan (Scan.signed 4))
      return Value.record [("fName", .text name), ("fSize", .int size), ("refs", .list refs)]) :=
    .bind (.times (.bind (.scan _) fun _ => .pure _) _) fun _ => .pure _
  dsimp only
  split
  · exact .bind (.throw _) fun _ => references
  · exact references

/-! ## types of other types -/

/-- faithful for every field and context -/
def Throughout (reader : Reader) : Prop := ∀ field ctx, Faithful (reader field ctx)

theorem elements (type : StreamType) (count : Nat) {reading : Reading Value}
    (one : Faithful reading) : Faithful (Reading.elements type count reading) := by
  unfold Reading.elements
  split
  · exact .times (.scan _) count
  · exact .times one count

/-- the elements of a list, from the node of the list to what comes after them -/
theorem listed {β : Type} (type : StreamType) (count : Nat) (info : NodeInfo)
    {reading : Reading Value} {rest : List Value → Reading β} (one : Faithful reading)
    (outer : ∀ items, Faithful (rest items)) :
    Faithful (do
      addList type count info
      let items ← Reading.elements type count reading
      leaveList type
      rest items) := by
  unfold addList leaveList
  cases type.primitive? with
  | some p =>
    exact .bind (.add _) fun _ => .bind (elements type count one) fun items =>
      .bind (.pure _) fun _ => outer items
  | none =>
    refine .entering (fun g => ?_) <| .bind (elements type count one) fun items =>
      .leave (outer items)
    dsimp only
    split
    · exact Generator.entered_enter g info
    · exact Generator.entered_enter g info

theorem vector (element : StreamType) {reader : Reader} (inner : Throughout reader) :
    Throughout (Reading.vector element reader) := fun _ ctx =>
  container "std::vector" ctx fun _ => .bind (.scan _) fun count =>
    listed element count _ (inner none ctx.items) fun _ => .pure _

theorem array (element : StreamType) (count : Nat) {reader : Reader} (inner : Throughout reader) :
    Throughout (Reading.array element count reader) := fun field ctx =>
  listed element count _ (inner field ctx.elements) fun _ => .pure _

theorem mapHeader (ctx : Context) : Faithful (Reading.mapHeader ctx) := by
  unfold Reading.mapHeader
  split
  · exact .pure _
  · refine .bind (.measured _) fun (header, skipped) => ?_
    have rest : Faithful (do
        Reading.scan (Scan.skip 6)
        return (some header, skipped + 6)) := .bind (.scan _) fun _ => .pure _
    dsimp only
    split
    · exact .bind (.throw _) fun _ => rest
    · exact rest

theorem map {keyReader valueReader : Reader} (keys : Throughout keyReader)
    (values : Throughout valueReader) : Throughout (Reading.map keyReader valueReader) := by
  intro field ctx
  refine .bind (.scan _) fun start => .bind (mapHeader ctx) fun (header, skipped) => ?_
  refine .bind (.scan _) fun count => .entering (fun g => ?_) ?_
  · dsimp only
    split
    · exact Generator.entered_enter g _
    · exact Generator.entered_enter g _
  · exact .bind (.looping 0 _ (.times (keys none ctx.mapKeys) count)) fun _ =>
      .bind (.looping 1 _ (.times (values none ctx.mapValues) count)) fun _ =>
      .leave (.bind (checkEnd "std::map" start header) fun _ => .pure _)

/-! ## classes -/

/-- what opens an object when its class is not around it, or nothing is generated -/
theorem openKnown (registry : Registry) (className : String) :
    Faithful (match registry.latest? className with
      | none => MonadExcept.throw (.unknownClass className)
      | some latest => do
        let start ← Reading.scan Scan.pos
        let (header, skipped) ← Reading.measured Scan.versionHeader
        if header.memberwise then Reading.memberwise className
        let layout := (registry.get? className header.version).getD latest
        return ({ start, header, skipped, layout,
                  otherVersion := layout.version ≠ latest.version } : Opening)) := by
  split
  · exact .throw _
  · refine .bind (.scan _) fun start => .bind (.measured _) fun (header, skipped) => ?_
    dsimp only
    split
    · exact .bind (memberwise className) fun _ => .pure _
    · exact .pure _

theorem openObject (registry : Registry) (className : String) (ctx : Context) :
    Faithful (Reading.openObject registry className ctx) := by
  intro c g
  simp only [Reading.openObject, run_bind, run_generating, carry_ok]
  cases inside : ctx.breadcrumbs.contains className with
  | true => exact .refused
  | false => exact openKnown registry className c g

theorem bases {readBase : String → Reader} (inner : ∀ base, Throughout (readBase base))
    (ctx : Context) (names : List String) : Faithful (Reading.bases readBase ctx names) := by
  induction names with
  | nil => exact .pure []
  | cons base rest ih =>
    refine .entering (fun g => Generator.entered_enter g _) ?_
    exact .bind (inner base none (ctx.inBase base)) fun _ => .leave (.bind ih fun _ => .pure _)

theorem members {readMember : StreamType → Reader} (inner : ∀ type, Throughout (readMember type))
    (ctx : Context) (slots : List Member) : Faithful (Reading.members readMember ctx slots) := by
  induction slots with
  | nil => exact .pure []
  | cons member rest ih =>
    exact .bind (inner member.type _ _) fun _ => .bind ih fun _ => .pure _

theorem body {reader : StreamType → Reader} (inner : ∀ type, Throughout (reader type))
    (className : String) (opening : Opening) :
    Throughout (Reading.body reader className opening) := fun field _ =>
  .entering (fun g => Generator.entered_intoObject className _ _ field _ g) <|
    .bind (bases (fun base => inner (.ofClass base)) _ _) fun _ =>
    .bind (members inner _ _) fun _ =>
    .leave (.bind (checkEnd className opening.start _) fun _ => .pure _)

theorem streamed {readNamed : String → Reader} (inner : ∀ name, Throughout (readNamed name))
    (type : StreamType) : Throughout (Reading.streamed readNamed type) := by
  induction type with
  | primitive p => exact primitive p
  | text kind => exact text kind
  | object => exact objectHead
  | datime => exact datime
  | time => exact time
  | ref => exact ref
  | refArray => exact refArray
  | vector element ih => exact vector element ih
  | array element count ih => exact array element count.toNat ih
  | map key value keys values => exact map keys values
  | named name => exact inner name

theorem named (registry : Registry) (depth : Nat) (className : String) :
    Throughout (Reading.named registry depth className) := by
  induction depth generalizing className with
  | zero =>
    intro field ctx
    exact .bind (openObject registry className ctx) fun _ => .scan _
  | succ depth ih =>
    intro field ctx
    exact .bind (openObject registry className ctx) fun opening =>
      body (streamed ih) className opening field ctx

end Faithful

end Reading

namespace Registry

open Reading (Faithful)

theorem faithful_read (registry : Registry) (type : StreamType) (field : Option String)
    (ctx : Context) : Faithful (registry.read type field ctx) := by
  intro c g
  have inner := Faithful.streamed (Faithful.named registry (c.remaining / 2)) type
  exact inner field ctx c g

/-- **A generator never changes what is read.**  From any cursor and with any generator, a read
either refuses because no decoder can be generated, or comes to the same value or fault as without
a generator, at the same position. -/
theorem read_same_or_refused (registry : Registry) (type : StreamType) (field : Option String)
    (ctx : Context) (c : Cursor) (g : Generator) :
    let plain := (registry.read type field ctx).run { cursor := c, generator := none }
    let made := (registry.read type field ctx).run { cursor := c, generator := some g }
    ((∃ cause, made.1 = .error (.ungeneratable cause)) ∨
        made.1 = plain.1 ∧ made.2.cursor = plain.2.cursor) ∧
      (∀ value, plain.1 = .ok value →
        (made.1 = .ok value ∧ made.2.cursor = plain.2.cursor) ∨
          ∃ cause, made.1 = .error (.ungeneratable cause)) ∧
      ∀ value, made.1 = .ok value → plain.1 = .ok value ∧ made.2.cursor = plain.2.cursor := by
  intro plain made
  have mirrored : Reading.Mirrored g plain made := faithful_read registry type field ctx c g
  generalize plain = plain at mirrored ⊢
  generalize made = made at mirrored ⊢
  cases mirrored with
  | @refused _ cause _ =>
    refine ⟨.inl ⟨cause, rfl⟩, fun _ _ => .inr ⟨cause, rfl⟩, fun value read => ?_⟩
    cases read
  | failed =>
    refine ⟨.inr ⟨rfl, rfl⟩, fun value read => ?_, fun value read => ?_⟩
    · cases read
    · cases read
  | done same =>
    exact ⟨.inr ⟨rfl, rfl⟩, fun _ read => .inl ⟨read, rfl⟩, fun _ read => ⟨read, rfl⟩⟩

end Registry

end Baskets
