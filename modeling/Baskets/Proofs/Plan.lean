import Baskets.Proofs.Node.Present
import Baskets.Proofs.Trace

/-!
# The whole tree of a type

Reading grows the tree of a decoder bit by bit; a `Plan` has it all at once, from the type and the
layouts alone.  The one thing that the type does not tell is how long the headers are, and so a plan
says of each node what header its code passes over.

The layouts are supposed to be regular: there is one of each class, and what is in an object can be
told apart by name.  `Registry.places` lists the places that the nodes and columns of a tree are
named after.
-/

namespace Baskets

/-! ## regular layouts -/

/-- one layout of each class, with bases that are `TObject` or classes of their own, and names that
tell bases and members apart -/
structure Registry.Regular (registry : Registry) : Prop where
  one : ∀ a ∈ registry.layouts, ∀ b ∈ registry.layouts, a.name = b.name → a = b
  basesOnce : ∀ layout ∈ registry.layouts, layout.bases.Nodup
  basesKnown : ∀ layout ∈ registry.layouts, ∀ base ∈ layout.bases, base = "TObject" ∨
    registry.contains base = true ∧ StreamType.ofClass base = .named base
  membersOnce : ∀ layout ∈ registry.layouts, (layout.members.map Member.name).Nodup
  membersPlain : ∀ layout ∈ registry.layouts, ∀ member ∈ layout.members,
    member.name.toList.head? ≠ some '@'

namespace Part

@[simp] theorem breadcrumbs_context (part : Part) (ctx : Context) :
    (part.context ctx).breadcrumbs = ctx.breadcrumbs := by
  cases part <;> rfl

@[simp] theorem indexFormat_context (part : Part) (ctx : Context) :
    (part.context ctx).indexFormat = ctx.indexFormat := by
  cases part <;> rfl

@[simp] theorem path_context (part : Part) (ctx : Context) :
    (part.context ctx).path = ctx.path ++ [part.slot] := by
  cases part <;> rfl

end Part

namespace Registry

variable {registry : Registry} {className : String} {layout : Layout}

theorem mem_of_latest? (known : registry.latest? className = some layout) :
    layout ∈ registry.layouts ∧ layout.name = className := by
  have mem := List.mem_of_getLast? known
  obtain ⟨there, name⟩ := List.mem_filter.1 mem
  exact ⟨there, of_decide_eq_true name⟩

/-- where a class has one layout, it is the layout of every object -/
theorem Regular.chosen (regular : registry.Regular)
    (known : registry.latest? className = some layout) (version : Nat) :
    (registry.get? className version).getD layout = layout := by
  cases got : registry.get? className version with
  | none => rfl
  | some other =>
    obtain ⟨there, name⟩ := mem_of_latest? known
    obtain ⟨thereToo, nameToo⟩ := List.mem_filter.1 (List.mem_of_find?_eq_some got)
    exact regular.one other thereToo layout there ((of_decide_eq_true nameToo).trans name.symm)

theorem unseen_append_singleton (registry : Registry) (seen : List String) (name : String) :
    registry.unseen (seen ++ [name]) = registry.unseen (name :: seen) := by
  unfold unseen
  congr 2
  funext layout
  simp [or_comm]

/-- the parts of an object, unless its own class is among those being read -/
def partsIn (registry : Registry) (seen : List String) (className : String) : List Part :=
  if className ∈ seen then []
  else ((registry.latest? className).map Layout.parts).getD []

theorem partsIn_eq {seen : List String} (outside : className ∉ seen)
    (known : registry.latest? className = some layout) :
    registry.partsIn seen className = layout.parts := by
  unfold partsIn
  rw [if_neg outside, known]
  rfl

theorem of_mem_partsIn {seen : List String} {part : Part}
    (mem : part ∈ registry.partsIn seen className) : className ∉ seen ∧
      ∃ layout, registry.latest? className = some layout ∧ part ∈ layout.parts := by
  unfold partsIn at mem
  split at mem
  · cases mem
  · cases known : registry.latest? className with
    | none =>
      rw [known] at mem
      cases mem
    | some layout =>
      rw [known] at mem
      exact ⟨‹_›, layout, rfl, mem⟩

/-- inside an object there are fewer classes left -/
theorem unseen_lt_of_mem_partsIn {seen : List String} {part : Part}
    (mem : part ∈ registry.partsIn seen className) :
    registry.unseen (seen ++ [className]) < registry.unseen seen := by
  obtain ⟨outside, layout, known, -⟩ := of_mem_partsIn mem
  rw [unseen_append_singleton]
  refine unseen_cons_lt outside fun none => ?_
  unfold latest? at known
  rw [none] at known
  cases known

theorem unseen_context_lt {outer : Context} {part : Part}
    (mem : part ∈ registry.partsIn outer.breadcrumbs className) :
    registry.unseen (part.context (outer.inClass className)).breadcrumbs <
      registry.unseen outer.breadcrumbs := by
  rw [part.breadcrumbs_context]
  exact unseen_lt_of_mem_partsIn mem

/-- induction over a type and all types in it, through the layouts of classes -/
theorem walk (registry : Registry) {motive : StreamType → Context → Prop}
    (primitive : ∀ p ctx, motive (.primitive p) ctx) (text : ∀ kind ctx, motive (.text kind) ctx)
    (object : ∀ ctx, motive .object ctx) (datime : ∀ ctx, motive .datime ctx)
    (time : ∀ ctx, motive .time ctx) (ref : ∀ ctx, motive .ref ctx)
    (refArray : ∀ ctx, motive .refArray ctx)
    (vector : ∀ element ctx, motive element ctx.items → motive (.vector element) ctx)
    (array : ∀ element count ctx, motive element ctx.elements → motive (.array element count) ctx)
    (map : ∀ key value ctx, motive key ctx.mapKeys → motive value ctx.mapValues →
      motive (.map key value) ctx)
    (named : ∀ name ctx, (∀ part ∈ registry.partsIn ctx.breadcrumbs name,
      motive part.type (part.context (ctx.inClass name))) → motive (.named name) ctx) :
    (type : StreamType) → (ctx : Context) → motive type ctx
  | .primitive p, ctx => primitive p ctx
  | .text kind, ctx => text kind ctx
  | .object, ctx => object ctx
  | .datime, ctx => datime ctx
  | .time, ctx => time ctx
  | .ref, ctx => ref ctx
  | .refArray, ctx => refArray ctx
  | .vector element, ctx => vector element ctx (walk registry primitive text object datime time ref
    refArray vector array map named element ctx.items)
  | .array element count, ctx => array element count ctx (walk registry primitive text object
    datime time ref refArray vector array map named element ctx.elements)
  | .map key value, ctx => map key value ctx
    (walk registry primitive text object datime time ref refArray vector array map named key
      ctx.mapKeys)
    (walk registry primitive text object datime time ref refArray vector array map named value
      ctx.mapValues)
  | .named name, ctx => named name ctx fun part _ => walk registry primitive text object datime
    time ref refArray vector array map named part.type (part.context (ctx.inClass name))
termination_by type ctx => (registry.unseen ctx.breadcrumbs, sizeOf type)
decreasing_by
  · exact .right _ (by simp)
  · exact .right _ (by rw [StreamType.array.sizeOf_spec]; omega)
  · exact .right _ (by rw [StreamType.map.sizeOf_spec]; omega)
  · exact .right _ (by rw [StreamType.map.sizeOf_spec]; omega)
  · exact .left _ _ (unseen_context_lt ‹_›)

end Registry

/-! ## the tree -/

/-- the node that stands around the node of a part, if it is a base -/
def Part.wrap (ctx : Context) (node : Node) : Part → Node
  | .base name => .mk (Contribution.base name (ctx.inBase name)) [node]
  | .member _ => node

theorem StreamType.eq_primitive {type : StreamType} {p : Primitive}
    (kind : type.primitive? = some p) : type = .primitive p := by
  cases type <;> cases kind
  rfl

/-- puts a loop around the code of a tree -/
def Node.looped (start : Instruction) : Node → Node
  | .mk info children => .mk (Contribution.looped start info) children

/-- layouts, and how many bytes of header the code of a node passes over -/
structure Plan where
  registry : Registry
  length : NodeKind → Nat

namespace Plan

variable (plan : Plan)

/-- the tree of a type -/
def node : StreamType → Option String → Context → Node
  | .primitive p, field, ctx => .mk (Contribution.number p field ctx) []
  | .text .tstring, field, ctx => .mk (Contribution.text 0 field ctx) []
  | .text .stdString, field, ctx =>
    .mk (Contribution.text (plan.length (.field (ctx.nodeName ""))) field ctx) []
  | .object, field, ctx =>
    .mk (Contribution.objectStart (plan.length (.start (ctx.label "TObject" "model"))) field ctx)
      [.mk (Contribution.record "TObject" ctx) []]
  | .datime, field, ctx => .mk (Contribution.datime field ctx) []
  | .time, field, ctx =>
    .mk (Contribution.time (plan.length (.prebuilt (ctx.nodeName ""))) field ctx) []
  | .ref, field, ctx => .mk (Contribution.ref field ctx) []
  | .refArray, field, ctx =>
    .mk (Contribution.refArray (plan.length (.prebuilt (ctx.nodeName ""))) field ctx) []
  | .vector element, field, ctx =>
    .mk (Contribution.vector element (plan.length (.field (ctx.nodeName ""))) field ctx)
      (if element.primitive?.isSome then [] else [node element none ctx.items])
  | .array element count, field, ctx =>
    .mk (Contribution.array element count.toNat field ctx)
      (if element.primitive?.isSome then [] else [node element field ctx.elements])
  | .map key value, field, ctx =>
    .mk (Contribution.map (plan.length (.field (ctx.nodeName ""))) field ctx)
      [(node key none ctx.mapKeys).looped .loopKeeping,
        (node value none ctx.mapValues).looped .loopTaking]
  | .named name, field, outer =>
    let ctx := outer.inClass name
    .mk (Contribution.dispatch name (plan.length (.dispatch (ctx.label name "dispatch"))) field ctx)
      [.mk (Contribution.start name ctx)
        [.mk (Contribution.record name ctx)
          ((plan.registry.partsIn outer.breadcrumbs name).attach.map fun part =>
            part.val.wrap ctx (node part.val.type part.val.field (part.val.context ctx)))]]
termination_by type _ ctx => (plan.registry.unseen ctx.breadcrumbs, sizeOf type)
decreasing_by
  · exact .right _ (by simp)
  · exact .right _ (by rw [StreamType.array.sizeOf_spec]; omega)
  · exact .right _ (by rw [StreamType.map.sizeOf_spec]; omega)
  · exact .right _ (by rw [StreamType.map.sizeOf_spec]; omega)
  · exact .left _ _ (Registry.unseen_context_lt part.property)

/-- the tree of a part of an object, with the node around a base -/
def partNode (ctx : Context) (part : Part) : Node :=
  part.wrap ctx (plan.node part.type part.field (part.context ctx))

theorem node_named (name : String) (field : Option String) (outer : Context) :
    plan.node (.named name) field outer =
      let ctx := outer.inClass name
      .mk
        (Contribution.dispatch name (plan.length (.dispatch (ctx.label name "dispatch"))) field ctx)
        [.mk (Contribution.start name ctx) [.mk (Contribution.record name ctx)
          ((plan.registry.partsIn outer.breadcrumbs name).map (plan.partNode ctx))]] := by
  rw [node]
  have parts := List.attach_map_val (l := plan.registry.partsIn outer.breadcrumbs name)
    (f := plan.partNode (outer.inClass name))
  exact congrArg (fun parts => Node.mk _ [.mk _ [.mk _ parts]]) parts

end Plan

/-! ## places -/

/-- a path from the top, and the role of what is named there -/
abbrev Place := List String × String

namespace Context

/-- the name of a node is told by its place -/
def placeKey (place : Place) : UInt64 :=
  Hash.value (Hash.Form.list Hash.Form.text place.1 ++ Hash.Form.text place.2)

end Context

/-- the roles of what a type names at its own path -/
def StreamType.roles : StreamType → List String
  | .primitive _ | .vector _ | .array .. | .map .. => [""]
  | .text _ => ["", "chars"]
  | .object => ["model", ""]
  | .datime => ["", "fDatime"]
  | .time => ["", "fMilliSec"]
  | .ref => ["", "ref"]
  | .refArray => ["", "fName", "fName chars", "fSize", "refs", "refs data"]
  | .named _ => ["dispatch", "model", ""]

/-- values of the type hold no values of other types -/
def StreamType.isSimple : StreamType → Bool
  | .vector _ | .array .. | .map .. | .named _ => false
  | _ => true

def StreamType.places (type : StreamType) (ctx : Context) : List Place :=
  type.roles.map fun role => (ctx.path, role)

namespace Registry

variable (registry : Registry)

section
variable {α : Type} (own : StreamType → Context → List α) (around : Context → List α)

/-- what a type and all types in it have of their own, and what stands around the parts of objects -/
def gather (type : StreamType) (ctx : Context) : List α :=
  own type ctx ++
    match type with
    | .vector element => gather element ctx.items
    | .array element _ => gather element ctx.elements
    | .map key value => gather key ctx.mapKeys ++ gather value ctx.mapValues
    | .named name =>
      (registry.partsIn ctx.breadcrumbs name).attach.flatMap fun part =>
        around (part.val.context (ctx.inClass name)) ++
          gather part.val.type (part.val.context (ctx.inClass name))
    | _ => []
termination_by (registry.unseen ctx.breadcrumbs, sizeOf type)
decreasing_by
  · exact .right _ (by simp)
  · exact .right _ (by rw [StreamType.array.sizeOf_spec]; omega)
  · exact .right _ (by rw [StreamType.map.sizeOf_spec]; omega)
  · exact .right _ (by rw [StreamType.map.sizeOf_spec]; omega)
  · exact .left _ _ (Registry.unseen_context_lt part.property)

theorem gather_simple {type : StreamType} (simple : type.isSimple = true) (ctx : Context) :
    registry.gather own around type ctx = own type ctx := by
  cases type with
  | vector | array | map | named => cases simple
  | _ =>
    unfold gather
    exact List.append_nil _

theorem gather_named (name : String) (ctx : Context) :
    registry.gather own around (.named name) ctx = own (.named name) ctx ++
      (registry.partsIn ctx.breadcrumbs name).flatMap fun part =>
        around (part.context (ctx.inClass name)) ++
          registry.gather own around part.type (part.context (ctx.inClass name)) := by
  rw [gather]
  have parts := List.attach_map_val (l := registry.partsIn ctx.breadcrumbs name)
    (f := fun part => around (part.context (ctx.inClass name)) ++
      registry.gather own around part.type (part.context (ctx.inClass name)))
  exact congrArg (fun parts => _ ++ List.flatten parts) parts

theorem gather_vector (element : StreamType) (ctx : Context) :
    registry.gather own around (.vector element) ctx =
      own (.vector element) ctx ++ registry.gather own around element ctx.items := by
  rw [gather]

theorem gather_array (element : StreamType) (count : UInt64) (ctx : Context) :
    registry.gather own around (.array element count) ctx =
      own (.array element count) ctx ++ registry.gather own around element ctx.elements := by
  rw [gather]

theorem gather_map (key value : StreamType) (ctx : Context) :
    registry.gather own around (.map key value) ctx =
      own (.map key value) ctx ++ (registry.gather own around key ctx.mapKeys ++
        registry.gather own around value ctx.mapValues) := by
  rw [gather]

theorem own_mem_gather {own : StreamType → Context → List α} {type : StreamType} {ctx : Context}
    {x : α} (mem : x ∈ own type ctx) : x ∈ registry.gather own around type ctx := by
  unfold gather
  exact List.mem_append_left _ mem

/-- what each type has of its own can be found beside something that each type has of its own, and so
for all that is gathered -/
theorem exists_mem_gather {β : Type} {own : StreamType → Context → List α}
    {other : StreamType → Context → List β} (around : Context → List β) {related : α → β → Prop}
    (each : ∀ type ctx, ∀ x ∈ own type ctx, ∃ y ∈ other type ctx, related x y)
    (type : StreamType) (ctx : Context) :
    ∀ x ∈ registry.gather own (fun _ => []) type ctx,
      ∃ y ∈ registry.gather other around type ctx, related x y := by
  have append {xs more : List α} {ys others : List β} (first : ∀ x ∈ xs, ∃ y ∈ ys, related x y)
      (second : ∀ x ∈ more, ∃ y ∈ others, related x y) :
      ∀ x ∈ xs ++ more, ∃ y ∈ ys ++ others, related x y := by
    refine List.forall_mem_append.2 ⟨fun x mem => ?_, fun x mem => ?_⟩
    · exact (first x mem).imp fun y => .imp_left (List.mem_append_left _)
    · exact (second x mem).imp fun y => .imp_left (List.mem_append_right _)
  induction type, ctx using registry.walk with
  | vector element ctx ih =>
    rw [gather_vector, gather_vector]
    exact append (each _ _) ih
  | array element count ctx ih =>
    rw [gather_array, gather_array]
    exact append (each _ _) ih
  | map key value ctx keys values =>
    rw [gather_map, gather_map]
    exact append (each _ _) (append keys values)
  | named name ctx ih =>
    rw [gather_named, gather_named]
    refine append (each _ _) fun x mem => ?_
    obtain ⟨part, inParts, mem⟩ := List.mem_flatMap.1 mem
    obtain ⟨y, there, both⟩ := ih part inParts x mem
    exact ⟨y, List.mem_flatMap.2 ⟨part, inParts, List.mem_append_right _ there⟩, both⟩
  | _ =>
    rw [registry.gather_simple _ _ rfl, registry.gather_simple _ _ rfl]
    exact each _ _

end

/-- the places that have a name in the tree of a type -/
def places : StreamType → Context → List Place :=
  registry.gather StreamType.places fun ctx => [(ctx.path, "base")]

/-- the places of a part, with that of the node around a base -/
def partPlaces (ctx : Context) (part : Part) : List Place :=
  ((part.context ctx).path, "base") :: registry.places part.type (part.context ctx)

theorem places_simple {type : StreamType} (simple : type.isSimple = true) (ctx : Context) :
    registry.places type ctx = type.places ctx := registry.gather_simple _ _ simple ctx

@[simp] theorem places_named (name : String) (ctx : Context) :
    registry.places (.named name) ctx = (StreamType.named name).places ctx ++
      (registry.partsIn ctx.breadcrumbs name).flatMap (registry.partPlaces (ctx.inClass name)) :=
  registry.gather_named _ _ name ctx

@[simp] theorem places_vector (element : StreamType) (ctx : Context) :
    registry.places (.vector element) ctx =
      (ctx.path, "") :: registry.places element ctx.items :=
  registry.gather_vector _ _ element ctx

@[simp] theorem places_array (element : StreamType) (count : UInt64) (ctx : Context) :
    registry.places (.array element count) ctx =
      (ctx.path, "") :: registry.places element ctx.elements :=
  registry.gather_array _ _ element count ctx

@[simp] theorem places_map (key value : StreamType) (ctx : Context) :
    registry.places (.map key value) ctx =
      (ctx.path, "") ::
        (registry.places key ctx.mapKeys ++ registry.places value ctx.mapValues) :=
  registry.gather_map _ _ key value ctx

end Registry

end Baskets
