import Baskets.Proofs.Plan.Whole
import Baskets.Proofs.Reading.Steady

/-!
# Every read grows along the lineage of its type

The whole tree of a type says where each of its nodes hangs (`Plan.lineage`).  Reader by reader,
reads of the type are steady below the host that the lineage gives to it, and show all nodes of the
type (`Plan.Steadily`).  Only the lengths of the headers and the order of growth are left open, so
this holds of reads that fail on the way as well.
-/

namespace Baskets

/-- all readers of the type are steady, at all places that are in the lineage -/
def Plan.Steadily (plan : Plan) (lineage : Lineage) (type : StreamType) (reader : Reading.Reader) :
    Prop :=
  ∀ (host : NodeKind) (field : Option String) (ctx : Context),
    ((plan.node type field ctx).links host).Sublist lineage.links →
      Reading.Steady lineage host (plan.node type field ctx).kinds (reader field ctx)

namespace Reading

open Generator (Extends)

variable {plan : Plan} {lineage : Lineage} {host : NodeKind} {kinds : List NodeKind}
  {g : Generator} {info planned : NodeInfo} {below : List Node}

/-! ## links -/

theorem link_of_sublist (sub : ((Node.mk planned below).links host).Sublist lineage.links)
    (kind : info.kind = planned.kind) : (host, info.kind) ∈ lineage.links :=
  kind ▸ sub.subset List.mem_cons_self

theorem sublist_of_links (sub : ((Node.mk planned below).links host).Sublist lineage.links) :
    (Node.linksAll planned.kind below).Sublist lineage.links :=
  (List.sublist_cons_self _ _).trans sub

theorem sublist_single {node : Node} (sub : (Node.linksAll host [node]).Sublist lineage.links) :
    (node.links host).Sublist lineage.links :=
  (List.sublist_append_left _ _).trans sub

namespace Steady

/-! ## headers -/

theorem memberwise {α : Type} (what : String) :
    Steady lineage host kinds (Reading.memberwise what : Reading α) :=
  fun c => ⟨.error (.ungeneratable (.memberwise what)), c, fun g obeys _ =>
    ⟨g, rfl, .failed (.refl obeys)⟩⟩

theorem containerHeader (what : String) (ctx : Context) :
    Steady lineage host [] (Reading.containerHeader what ctx) := by
  unfold Reading.containerHeader
  split
  · exact .pure _
  · refine .before (.measured .versionHeader) fun (header, skipped) => ?_
    dsimp only
    split
    · exact .before (memberwise what) fun _ => .pure _
    · exact .pure _

theorem checkEnd (what : String) (start : Nat) (header : Option VersionHeader) :
    Steady lineage host [] (Reading.checkEnd what start header) := by
  unfold Reading.checkEnd
  split
  · exact .pure _
  · refine .before (.scan .pos) fun actual => ?_
    dsimp only
    split
    · exact .throw _
    · exact .pure _

theorem container {α : Type} (what : String) (ctx : Context) {body : Nat → Reading α}
    (within : ∀ skipped, Steady lineage host kinds (body skipped)) :
    Steady lineage host kinds (Reading.container what ctx body) :=
  .before (.scan .pos) fun _ => .before (containerHeader what ctx) fun (_, skipped) =>
    .after (within skipped) fun _ => .before (checkEnd what _ _) fun _ => .pure _

/-! ## types of a fixed layout -/

/-- a node without children -/
theorem leaf (info : NodeInfo) (sub : ((Node.mk planned []).links host).Sublist lineage.links)
    (kind : info.kind = planned.kind) :
    Steady lineage host (Node.mk planned []).kinds (Reading.add info) := by
  show Steady lineage host [planned.kind] _
  rw [← kind]
  exact add info (link_of_sublist sub kind)

theorem primitive (plan : Plan) (lineage : Lineage) (p : Primitive) :
    plan.Steadily lineage (.primitive p) (Reading.primitive p) := by
  intro host field ctx sub
  rw [Plan.node] at sub ⊢
  exact .after (leaf _ sub rfl) fun _ => .scan _

theorem text (plan : Plan) (lineage : Lineage) (kind : TextKind) :
    plan.Steadily lineage (.text kind) (Reading.text kind) := by
  intro host field ctx sub
  have body {header : Nat} (skipped : Nat)
      (sub : ((Node.mk (Contribution.text header field ctx) []).links host).Sublist lineage.links) :
      Steady lineage host (Node.mk (Contribution.text header field ctx) []).kinds (do
        Reading.add (Contribution.text skipped field ctx)
        return Value.text (← Reading.scan Scan.string)) :=
    .after (leaf _ sub rfl) fun _ => .before (.scan _) fun _ => .pure _
  cases kind with
  | tstring =>
    rw [Plan.node] at sub ⊢
    exact body 0 sub
  | stdString =>
    rw [Plan.node] at sub ⊢
    have whole := container "std::string" ctx fun skipped => body skipped sub
    exact whole

theorem objectHead (plan : Plan) (lineage : Lineage) :
    plan.Steadily lineage .object Reading.objectHead := by
  intro host field ctx sub
  rw [Plan.node] at sub ⊢
  have start : (host, .start (ctx.label "TObject" "model")) ∈ lineage.links :=
    sub.subset List.mem_cons_self
  have record : (.start (ctx.label "TObject" "model"), .field (ctx.nodeName "")) ∈ lineage.links :=
    sub.subset (List.mem_cons_of_mem _ List.mem_cons_self)
  refine .before (.measured _) ?_
  rintro ⟨⟨_, _⟩, skipped⟩
  refine entering (fun g obeys active =>
    inside_enter (Contribution.objectStart skipped field ctx) obeys active start) ?_
  exact .bind (add (Contribution.record "TObject" ctx) record) fun _ => .leave (.pure _)

theorem datime (plan : Plan) (lineage : Lineage) :
    plan.Steadily lineage .datime Reading.datime := by
  intro host field ctx sub
  rw [Plan.node] at sub ⊢
  exact .after (leaf _ sub rfl) fun _ => .before (.scan _) fun _ => .pure _

theorem time (plan : Plan) (lineage : Lineage) : plan.Steadily lineage .time Reading.time := by
  intro host field ctx sub
  rw [Plan.node] at sub ⊢
  exact container "TTime" ctx fun _ =>
    .after (leaf _ sub rfl) fun _ => .before (.scan _) fun _ => .pure _

theorem ref (plan : Plan) (lineage : Lineage) : plan.Steadily lineage .ref Reading.ref := by
  intro host field ctx sub
  rw [Plan.node] at sub ⊢
  exact .after (leaf _ sub rfl) fun _ => .before (.scan _) fun _ => .before (.scan _) fun _ =>
    .before (.scan _) fun _ => .pure _

theorem refArray (plan : Plan) (lineage : Lineage) :
    plan.Steadily lineage .refArray Reading.refArray := by
  intro host field ctx sub
  rw [Plan.node] at sub ⊢
  refine container "TRefArray" ctx fun skipped => .after (leaf _ sub rfl) fun _ => ?_
  refine .before (.scan _) fun _ => .before (.scan _) fun name => .before (.scan _) fun size => ?_
  refine .before (.scan _) fun _ => ?_
  dsimp only
  by_cases negative : size < 0
  · rw [if_pos negative]
    exact .throw_bind
  · rw [if_neg negative]
    have one : Steady lineage host [] (do return Value.int (← Reading.scan (Scan.signed 4))) :=
      .before (.scan _) fun _ => .pure _
    exact .before ((one.times size.toNat).mono (List.nil_subset _)) fun _ => .pure _

/-! ## types of other types -/

/-- into a list that is entered; if it is empty it shows no elements, and says so -/
theorem inside_list (info : NodeInfo) (obeys : g.Obeys lineage) (active : g.At host)
    (link : (host, info.kind) ∈ lineage.links) (count : Nat) (kinds : List NodeKind) :
    Inside lineage info.kind g (if count = 0 then (g.enter info).markIncomplete else g.enter info) ∧
      Shown (info.kind :: if count = 0 then kinds else []) g
        (if count = 0 then (g.enter info).markIncomplete else g.enter info) := by
  obtain ⟨entered, shown⟩ := inside_enter info obeys active link
  by_cases empty : count = 0
  · rw [if_pos empty, if_pos empty]
    exact entered.markIncomplete _
  · rw [if_neg empty, if_neg empty]
    exact ⟨entered, shown⟩

/-- a list shows its elements, now if it is empty and when they are read if it is not -/
theorem subset_list {kind : NodeKind} {kinds later : List NodeKind} (count : Nat)
    (rest : count ≠ 0 → kinds ⊆ later) :
    kind :: kinds ⊆ (kind :: if count = 0 then kinds else []) ++ later := by
  refine List.cons_subset_cons kind ?_
  by_cases empty : count = 0
  · rw [if_pos empty]
    exact List.subset_append_left _ _
  · rw [if_neg empty]
    exact rest empty

/-- the elements of a list, from the node of the list to what comes after them -/
theorem listed {β : Type} {type : StreamType} {reader : Reader} {field : Option String}
    {ctx : Context} (count : Nat) {rest : List Value → Reading β}
    (within : plan.Steadily lineage type reader)
    (sub : ((Node.mk planned (if type.primitive?.isSome then [] else
      [plan.node type field ctx])).links host).Sublist lineage.links)
    (kind : info.kind = planned.kind) (outer : ∀ items, Steady lineage host [] (rest items)) :
    Steady lineage host (Node.mk planned (if type.primitive?.isSome then [] else
        [plan.node type field ctx])).kinds (do
      addList type count info
      let items ← Reading.elements type count (reader field ctx)
      leaveList type
      rest items) := by
  have link := link_of_sublist sub kind
  unfold addList leaveList Reading.elements
  cases numbers : type.primitive? with
  | some p =>
    have one : Steady lineage host [] (Reading.scan p.scan) := .scan _
    show Steady lineage host [planned.kind] _
    rw [← kind]
    exact .after (.add info link) fun _ =>
      .before ((one.times count).mono (List.nil_subset _)) fun items =>
        .before (.pure _) fun _ => outer items
  | none =>
    rw [numbers] at sub
    have one := within info.kind field ctx (kind ▸ sublist_single (sublist_of_links sub))
    show Steady lineage host (planned.kind :: ((plan.node type field ctx).kinds ++ [])) _
    rw [List.append_nil, ← kind]
    refine mono (entering (fun g obeys active => inside_list info obeys active link count _)
      (.bind (one.times count) fun items => .leave (outer items)))
      (subset_list count fun some_ => ?_)
    rw [if_neg some_, List.append_nil]
    exact List.Subset.refl _

theorem vector {element : StreamType} {reader : Reader}
    (within : plan.Steadily lineage element reader) :
    plan.Steadily lineage (.vector element) (Reading.vector element reader) := by
  intro host field ctx sub
  have kind := Plan.kind_vector element
  rw [Plan.node] at sub ⊢
  exact container "std::vector" ctx fun skipped => .before (.scan _) fun count =>
    listed count within sub ((kind _ _ _).trans (kind _ _ _).symm) fun _ => .pure _

theorem array {element : StreamType} (count : UInt64) {reader : Reader}
    (within : plan.Steadily lineage element reader) :
    plan.Steadily lineage (.array element count) (Reading.array element count.toNat reader) := by
  intro host field ctx sub
  rw [Plan.node] at sub ⊢
  exact listed count.toNat within sub rfl fun _ => .pure _

theorem mapHeader (ctx : Context) : Steady lineage host [] (Reading.mapHeader ctx) := by
  unfold Reading.mapHeader
  split
  · exact .pure _
  · refine .before (.measured _) fun (header, skipped) => ?_
    dsimp only
    split
    · exact .throw_bind
    · exact .before (.scan _) fun _ => .pure _

theorem map {key value : StreamType} {keyReader valueReader : Reader}
    (keys : plan.Steadily lineage key keyReader) (values : plan.Steadily lineage value valueReader) :
    plan.Steadily lineage (.map key value) (Reading.map keyReader valueReader) := by
  intro host field ctx sub
  rw [Plan.node] at sub ⊢
  let inKeys := plan.node key none ctx.mapKeys
  let inValues := plan.node value none ctx.mapValues
  have link : (host, .field (ctx.nodeName "")) ∈ lineage.links := sub.subset List.mem_cons_self
  have both : (inKeys.links (.field (ctx.nodeName "")) ++
      inValues.links (.field (ctx.nodeName ""))).Sublist lineage.links := by
    have children := sublist_of_links sub
    rw [Node.linksAll, Node.linksAll, Node.linksAll, Node.links_looped, Node.links_looped,
      List.append_nil] at children
    exact children
  have differ : inKeys.kind ≠ inValues.kind := by
    have once := lineage.once.sublist (both.map Prod.snd)
    rw [List.map_append, Node.map_snd_links, Node.map_snd_links] at once
    exact (List.nodup_append.1 once).2.2 _ inKeys.kind_mem_kinds _ inValues.kind_mem_kinds
  have keyLinks := (List.sublist_append_left _ _).trans both
  have valueLinks := (List.sublist_append_right _ _).trans both
  have first := keyLinks.subset (inKeys.link_mem_links _)
  have second := valueLinks.subset (inValues.link_mem_links _)
  refine .before (.scan _) fun start => .before (mapHeader ctx) ?_
  rintro ⟨header, skipped⟩
  refine .before (.scan _) fun count => ?_
  have readKeys := (keys _ none ctx.mapKeys keyLinks).times count
  have readValues := (values _ none ctx.mapValues valueLinks).times count
  rw [Node.kinds, Node.kindsAll, Node.kindsAll, Node.kindsAll, Plan.kinds_looped, Plan.kinds_looped,
    List.append_nil]
  refine mono (entering (fun g obeys active => inside_list (Contribution.map skipped field ctx)
      obeys active link count _) <|
    .bind (readKeys.looping .loopKeeping first second differ Nat.zero_lt_two) fun _ =>
    .bind (readValues.looping .loopTaking first second differ Nat.one_lt_two) fun _ =>
    .leave (.before (checkEnd "std::map" start header) fun _ => .pure _))
    (subset_list count fun some_ => ?_)
  rw [if_neg some_, if_neg some_, List.append_nil]
  exact List.Subset.refl _

/-! ## classes -/

theorem openObject (registry : Registry) (className : String) (ctx : Context) :
    Steady lineage host [] (Reading.openObject registry className ctx) := by
  unfold Reading.openObject
  refine .before .generating fun generating => ?_
  by_cases inside : (generating && ctx.breadcrumbs.contains className) = true
  · rw [if_pos inside]
    exact .throw_bind
  rw [if_neg inside]
  dsimp only
  cases registry.latest? className with
  | none => exact .throw _
  | some latest =>
    refine .before (.scan _) fun start => .before (.measured _) fun (header, skipped) => ?_
    dsimp only
    by_cases columns : header.memberwise = true
    · rw [if_pos columns]
      exact .before (memberwise className) fun _ => .pure _
    · rw [if_neg columns]
      exact .pure _

/-- into an object of the newest version, down to the record of its bases and members -/
theorem inside_object {className : String} {skipped : Nat} {field : Option String} {ctx : Context}
    (obeys : g.Obeys lineage) (active : g.At host)
    (outer : (host, .dispatch (ctx.label className "dispatch")) ∈ lineage.links)
    (middle : (.dispatch (ctx.label className "dispatch"), .start (ctx.label className "model")) ∈
      lineage.links)
    (inner : (.start (ctx.label className "model"), .field (ctx.nodeName "")) ∈ lineage.links) :
    Inside lineage (.field (ctx.nodeName "")) g
        (Contribution.intoObject className skipped false field ctx g) ∧
      Shown [.dispatch (ctx.label className "dispatch"), .start (ctx.label className "model"),
        .field (ctx.nodeName "")] g (Contribution.intoObject className skipped false field ctx g) := by
  obtain ⟨dispatched, first⟩ :=
    inside_enter (Contribution.dispatch className skipped field ctx) obeys active outer
  obtain ⟨started, second⟩ := dispatched.descend (Contribution.start className ctx) middle
  obtain ⟨ended, third⟩ := started.descend (Contribution.record className ctx) inner
  have shown := (first.trans second (Generator.extends_descend _ _)).trans third
    (Generator.extends_descend _ _)
  exact ⟨ended, shown⟩

section
variable {className : String} {ctx : Context} {reader : StreamType → Reader}

theorem bases (within : ∀ type, plan.Steadily lineage type (reader type)) (names : List String)
    (sub : (Node.linksAll host ((names.map .base).map (plan.partNode ctx))).Sublist
      lineage.links) :
    Steady lineage host (Node.kindsAll ((names.map .base).map (plan.partNode ctx)))
      (Reading.bases (fun base => reader (.ofClass base)) ctx names) := by
  induction names with
  | nil => exact .pure []
  | cons base rest ih =>
    let inner := ctx.inBase base
    let node := plan.node (.ofClass base) none inner
    have first : ((Node.mk (Contribution.base base inner) [node]).links host).Sublist lineage.links :=
      (List.sublist_append_left _ _).trans sub
    have others := ih ((List.sublist_append_right _ _).trans sub)
    have one := within (.ofClass base) _ none inner (sublist_single (sublist_of_links first))
    have below : Steady lineage host (.base (inner.label base "base") :: (node.kinds ++
        Node.kindsAll ((rest.map .base).map (plan.partNode ctx))))
        (Reading.bases (fun base => reader (.ofClass base)) ctx (base :: rest)) :=
      entering (fun g obeys active => inside_enter _ obeys active (link_of_sublist first rfl))
        (.bind one fun _ => .leave (.after others fun _ => .pure _))
    refine below.mono fun kind mem => ?_
    rw [← List.cons_append]
    exact List.append_nil node.kinds ▸ mem

theorem members (within : ∀ type, plan.Steadily lineage type (reader type)) (slots : List Member)
    (sub : (Node.linksAll host ((slots.map .member).map (plan.partNode ctx))).Sublist
      lineage.links) :
    Steady lineage host (Node.kindsAll ((slots.map .member).map (plan.partNode ctx)))
      (Reading.members reader ctx slots) := by
  induction slots with
  | nil => exact .pure []
  | cons own rest ih =>
    have one := within own.type host (some own.name) (ctx.inMember own.name)
      ((List.sublist_append_left _ _).trans sub)
    exact .bind one fun _ => .after (ih ((List.sublist_append_right _ _).trans sub)) fun _ => .pure _

theorem body (within : ∀ type, plan.Steadily lineage type (reader type)) {opening : Opening}
    {outer : Context} (field : Option String) (newest : opening.otherVersion = false)
    (parts : plan.registry.partsIn outer.breadcrumbs className = opening.layout.parts)
    (sub : ((plan.node (.named className) field outer).links host).Sublist lineage.links) :
    Steady lineage host (plan.node (.named className) field outer).kinds
      (Reading.body reader className opening field outer) := by
  let ctx := outer.inClass className
  let basesNodes := (opening.layout.bases.map Part.base).map (plan.partNode ctx)
  let membersNodes := (opening.layout.members.map Part.member).map (plan.partNode ctx)
  have shape : plan.node (.named className) field outer =
      .mk (Contribution.dispatch className
          (plan.length (.dispatch (ctx.label className "dispatch"))) field ctx)
        [.mk (Contribution.start className ctx)
          [.mk (Contribution.record className ctx) (basesNodes ++ membersNodes)]] := by
    rw [Plan.node_named, parts, ← List.map_append]
    rfl
  rw [shape] at sub ⊢
  have toStart := sublist_single (sublist_of_links sub)
  have toRecord := sublist_single (sublist_of_links toStart)
  have inside := sublist_of_links toRecord
  rw [Node.linksAll_append] at inside
  have inBases := bases within opening.layout.bases ((List.sublist_append_left _ _).trans inside)
  have inMembers :=
    members within opening.layout.members ((List.sublist_append_right _ _).trans inside)
  unfold Reading.body
  rw [newest]
  refine mono (entering (fun g obeys active => inside_object obeys active (link_of_sublist sub rfl)
      (link_of_sublist toStart rfl) (link_of_sublist toRecord rfl)) <|
    .bind inBases fun _ => .bind inMembers fun _ =>
    .leave (.before (checkEnd className opening.start _) fun _ => .pure _)) fun kind mem => ?_
  rw [List.append_nil, ← Node.kindsAll_append]
  rcases List.mem_cons.1 mem with rfl | mem
  · exact List.mem_cons_self
  rw [Node.kindsAll, Node.kindsAll, List.append_nil] at mem
  rcases List.mem_cons.1 mem with rfl | mem
  · exact List.mem_cons_of_mem _ List.mem_cons_self
  rw [Node.kindsAll, Node.kindsAll, List.append_nil] at mem
  exact List.mem_cons_of_mem _ (List.mem_cons_of_mem _ mem)

end

theorem streamed {readNamed : String → Reader}
    (within : ∀ name, plan.Steadily lineage (.named name) (readNamed name)) (type : StreamType) :
    plan.Steadily lineage type (Reading.streamed readNamed type) := by
  induction type with
  | primitive p => exact primitive plan lineage p
  | text kind => exact text plan lineage kind
  | object => exact objectHead plan lineage
  | datime => exact datime plan lineage
  | time => exact time plan lineage
  | ref => exact ref plan lineage
  | refArray => exact refArray plan lineage
  | vector element ih => exact vector ih
  | array element count ih => exact array count ih
  | map key value keys values => exact map keys values
  | named name => exact within name

theorem named (regular : plan.registry.Regular) (depth : Nat) (className : String) :
    plan.Steadily lineage (.named className) (Reading.named plan.registry depth className) := by
  induction depth generalizing className with
  | zero =>
    intro host field ctx _
    -- the last level is met with too few bytes, whatever they are
    exact .before (openObject plan.registry className ctx) fun _ c =>
      ⟨.error (.underflow c.pos 4 c.remaining), c, fun g obeys _ => ⟨g, rfl, .failed (.refl obeys)⟩⟩
  | succ depth ih =>
    intro host field ctx sub
    refine .bind_of (openObject plan.registry className ctx) fun opening ⟨c, g, progress, opened⟩ => ?_
    obtain ⟨latest, header, outside, known, -, -, layout, other, -⟩ :=
      openObject_ok plan.registry opened
    have newest : opening.layout = latest := layout.trans (regular.chosen known header.version)
    refine body (streamed ih) field ?_ ?_ sub
    · rw [other, newest]
      simp
    · rw [newest]
      exact Registry.partsIn_eq (outside rfl) known

end Steady

end Reading

/-! ## the lineage of a type -/

/-- where the nodes of the type hang below the root -/
def Plan.lineage (plan : Plan) (regular : plan.registry.Regular) {type : StreamType} {ctx : Context}
    (apart : Place.Apart (plan.registry.places type ctx)) (field : Option String) : Lineage :=
  .ofNode (plan.node type field ctx) (by
    have once : (NodeKind.top :: ((plan.node type field ctx).kinds ++ [])).Nodup :=
      plan.whole_nodup regular apart field
    rwa [List.append_nil] at once)

/-- **Reads are steady.**  From one place, all reads of a type come to the same end whatever the
generator, and grow the tree of the type along its lineage. -/
theorem Plan.steady_read (plan : Plan) (regular : plan.registry.Regular) {type : StreamType}
    {ctx : Context} (apart : Place.Apart (plan.registry.places type ctx)) (field : Option String) :
    Reading.Steady (plan.lineage regular apart field) .top (plan.node type field ctx).kinds
      (plan.registry.read type field ctx) := by
  intro c
  have named := @Reading.Steady.named plan (plan.lineage regular apart field) regular
    (c.remaining / 2)
  exact Reading.Steady.streamed named type .top field ctx (List.Sublist.refl _) c

end Baskets
