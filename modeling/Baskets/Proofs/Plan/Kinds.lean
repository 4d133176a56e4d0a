import Mathlib.Data.List.Forall2
import Baskets.Proofs.Plan

/-!
# The nodes of a type are told apart by their kinds

The name of every node ends in the name of a place, with a space before it if there is more to the
name.  The nodes of a tree are named after some of the places of its type, in their order
(`Plan.kinds_along`), and no place is among them twice (`Registry.Regular.places_nodup`).  So when
no two places of a type come to the same name, no two nodes of its tree are of one kind
(`Plan.kinds_nodup`).
-/

namespace Baskets

/-! ## names -/

/-- the name of a place -/
def Place.name (place : Place) : String := "node" ++ toString (Context.placeKey place).toNat

/-- no two of the places come to the same name -/
def Place.Apart (places : List Place) : Prop :=
  ∀ p ∈ places, ∀ q ∈ places, Context.placeKey p = Context.placeKey q → p = q

instance (places : List Place) : Decidable (Place.Apart places) :=
  inferInstanceAs (Decidable (∀ p ∈ places, ∀ q ∈ places, _))

theorem Place.Apart.mono {places others : List Place} (apart : Place.Apart others)
    (sub : places ⊆ others) : Place.Apart places :=
  fun p here q there => apart p (sub here) q (sub there)

namespace Place

theorem toList_name (place : Place) : (name place).toList =
    ['n', 'o', 'd', 'e'] ++ Nat.toDigits 10 (Context.placeKey place).toNat := by
  unfold name
  rw [String.toList_append]
  show _ ++ (Nat.repr _).toList = _
  rw [Nat.toList_repr]
  rfl

theorem space_notMem_name (place : Place) : ' ' ∉ (name place).toList := by
  rw [toList_name]
  intro mem
  rcases List.mem_append.1 mem with letter | digit
  · revert letter
    decide
  · have isDigit := Nat.isDigit_of_mem_toDigits (by decide) (by decide) digit
    revert isDigit
    decide

theorem placeKey_eq_of_name_eq {p q : Place} (same : name p = name q) :
    Context.placeKey p = Context.placeKey q := by
  have lists := congrArg String.toList same
  rw [toList_name, toList_name] at lists
  have digits := congrArg (fun digits => Nat.ofDigitChars 10 digits 0)
    (List.append_cancel_left lists)
  rw [Nat.ofDigitChars_ten_toDigits, Nat.ofDigitChars_ten_toDigits] at digits
  exact UInt64.toNat_inj.1 digits

end Place

namespace NodeKind

/-- the name that its place gave the node -/
def name : NodeKind → String
  | .top => ""
  | .dispatch name | .wrongVersion name | .start name | .base name | .prebuilt name
  | .field name => name

/-- the characters behind the last space -/
def stem (kind : NodeKind) : List Char :=
  (kind.name.toList.reverse.takeWhile (· ≠ ' ')).reverse

/-- the node is named after the place -/
def NamedAfter (kind : NodeKind) (place : Place) : Prop := kind.stem = place.name.toList

theorem stem_of_name (front : List Char) {kind : NodeKind} {place : Place}
    (named : kind.name.toList = front ++ place.name.toList)
    (alone : front = [] ∨ ∃ before, front = before ++ [' ']) : kind.NamedAfter place := by
  have letters : ∀ c ∈ place.name.toList.reverse, decide (c ≠ ' ') = true := by
    intro c mem
    refine decide_eq_true fun space => place.space_notMem_name ?_
    rw [← space]
    exact List.mem_reverse.1 mem
  unfold NamedAfter stem
  rw [named, List.reverse_append, List.takeWhile_append_of_pos letters]
  rcases alone with rfl | ⟨before, rfl⟩
  · rw [List.reverse_nil, List.takeWhile_nil, List.append_nil, List.reverse_reverse]
  · rw [@List.reverse_append _ before, List.reverse_singleton, List.singleton_append,
      List.takeWhile_cons_of_neg (by decide), List.append_nil, List.reverse_reverse]

theorem namedAfter_field (ctx : Context) (role : String) :
    NamedAfter (.field (ctx.nodeName role)) (ctx.path, role) :=
  stem_of_name [] rfl (.inl rfl)

theorem namedAfter_prebuilt (ctx : Context) (role : String) :
    NamedAfter (.prebuilt (ctx.nodeName role)) (ctx.path, role) :=
  stem_of_name [] rfl (.inl rfl)

theorem toList_label (ctx : Context) (className role : String) :
    (ctx.label className role).toList =
      (className.toList ++ [' ']) ++ (Place.name (ctx.path, role)).toList := by
  unfold Context.label
  rw [String.toList_append, String.toList_append]
  rfl

theorem namedAfter_label {kind : NodeKind} {ctx : Context} {className role : String}
    (label : kind.name = ctx.label className role) : NamedAfter kind (ctx.path, role) :=
  stem_of_name _ (label ▸ toList_label ctx className role) (.inr ⟨_, rfl⟩)

theorem NamedAfter.placeKey_eq {kind : NodeKind} {p q : Place} (first : kind.NamedAfter p)
    (second : kind.NamedAfter q) : Context.placeKey p = Context.placeKey q :=
  Place.placeKey_eq_of_name_eq (String.toList_inj.1 (first.symm.trans second))

end NodeKind

/-! ## places -/

namespace Registry

variable {registry : Registry}

/-- the places of a type are its own, or those of types below it -/
theorem of_mem_places {type : StreamType} {ctx : Context} {place : Place}
    (mem : place ∈ registry.places type ctx) :
    place.1 = ctx.path ∧ place.2 ∈ type.roles ∨ place ∈ match type with
      | .vector element => registry.places element ctx.items
      | .array element _ => registry.places element ctx.elements
      | .map key value => registry.places key ctx.mapKeys ++ registry.places value ctx.mapValues
      | .named name =>
        (registry.partsIn ctx.breadcrumbs name).flatMap (registry.partPlaces (ctx.inClass name))
      | _ => [] := by
  have own : place ∈ type.places ctx →
      place.1 = ctx.path ∧ place.2 ∈ type.roles := by
    intro mem
    obtain ⟨role, there, rfl⟩ := List.mem_map.1 mem
    exact ⟨rfl, there⟩
  cases type with
  | named name =>
    rw [places_named] at mem
    exact (List.mem_append.1 mem).imp_left own
  | _ =>
    unfold places gather at mem
    exact (List.mem_append.1 mem).imp_left own

/-- the places of a type are below its path -/
theorem prefix_of_mem_places (type : StreamType) (ctx : Context) :
    ∀ place ∈ registry.places type ctx, ctx.path <+: place.1 := by
  induction type, ctx using registry.walk with
  | vector element ctx ih =>
    intro place mem
    rcases of_mem_places mem with own | below
    · exact own.1 ▸ List.prefix_rfl
    · exact (List.prefix_append _ _).trans (ih place below)
  | array element count ctx ih =>
    intro place mem
    rcases of_mem_places mem with own | below
    · exact own.1 ▸ List.prefix_rfl
    · exact (List.prefix_append _ _).trans (ih place below)
  | map key value ctx keys values =>
    intro place mem
    rcases of_mem_places mem with own | below
    · exact own.1 ▸ List.prefix_rfl
    · rcases List.mem_append.1 below with below | below
      · exact (List.prefix_append _ _).trans (keys place below)
      · exact (List.prefix_append _ _).trans (values place below)
  | named name ctx ih =>
    intro place mem
    rcases of_mem_places mem with own | below
    · exact own.1 ▸ List.prefix_rfl
    · obtain ⟨part, there, below⟩ := List.mem_flatMap.1 below
      have deeper : ctx.path <+: (part.context (ctx.inClass name)).path := by
        rw [Part.path_context]
        exact List.prefix_append _ _
      rcases List.mem_cons.1 below with rfl | below
      · exact deeper
      · exact deeper.trans (ih part there place below)
  | _ =>
    intro place mem
    rcases of_mem_places mem with own | below
    · exact own.1 ▸ List.prefix_rfl
    · cases below

theorem notMem_places_of_slot {type : StreamType} {inner : Context} {path : List String}
    {slot : String} (deeper : inner.path = path ++ [slot]) (role : String) :
    (path, role) ∉ registry.places type inner := by
  intro mem
  have below := (prefix_of_mem_places type inner _ mem).length_le
  rw [deeper, List.length_append] at below
  exact Nat.not_succ_le_self _ below

/-- the places of a part have the role of a base only at the path of the part -/
theorem base_notMem_roles (type : StreamType) : "base" ∉ type.roles := by
  cases type <;> simp [StreamType.roles]

theorem base_notMem_places (type : StreamType) (ctx : Context) :
    (ctx.path, "base") ∉ registry.places type ctx := by
  intro mem
  rcases of_mem_places mem with own | below
  · exact base_notMem_roles type own.2
  · cases type with
    | vector element => exact notMem_places_of_slot rfl "base" below
    | array element count => exact notMem_places_of_slot rfl "base" below
    | map key value =>
      rcases List.mem_append.1 below with below | below
      · exact notMem_places_of_slot rfl "base" below
      · exact notMem_places_of_slot rfl "base" below
    | named name =>
      obtain ⟨part, -, below⟩ := List.mem_flatMap.1 below
      have deeper := Part.path_context part (ctx.inClass name)
      rcases List.mem_cons.1 below with same | below
      · have lengths := congrArg (fun place => place.1.length) same
        rw [deeper, List.length_append] at lengths
        exact absurd lengths (Nat.ne_of_lt (Nat.lt_succ_self _))
      · exact notMem_places_of_slot deeper "base" below
    | _ => cases below

/-- below different slots there are different places -/
theorem slot_eq_of_below {path rest : List String} {slot other : String}
    (here : path ++ [slot] <+: rest) (there : path ++ [other] <+: rest) : slot = other := by
  obtain ⟨more, rfl⟩ := here
  obtain ⟨others, same⟩ := there
  rw [List.append_assoc, List.append_assoc] at same
  exact (List.cons.inj (List.append_cancel_left same)).1.symm

theorem prefix_of_mem_partPlaces {ctx : Context} {part : Part} {place : Place}
    (mem : place ∈ registry.partPlaces ctx part) : ctx.path ++ [part.slot] <+: place.1 := by
  rw [← Part.path_context]
  rcases List.mem_cons.1 mem with rfl | mem
  · exact List.prefix_rfl
  · exact prefix_of_mem_places _ _ place mem

/-- the parts of an object have slots of their own -/
theorem Regular.slots_nodup (regular : registry.Regular) (name : String) (ctx : Context) :
    ((registry.partsIn ctx.breadcrumbs name).map Part.slot).Nodup := by
  unfold partsIn
  split
  · exact List.nodup_nil
  · cases known : registry.latest? name with
    | none => exact List.nodup_nil
    | some layout =>
      have there := (mem_of_latest? known).1
      show (List.map Part.slot (layout.bases.map .base ++ layout.members.map .member)).Nodup
      rw [List.map_append, List.map_map, List.map_map]
      refine List.nodup_append.2
        ⟨?_, regular.membersOnce layout there, fun slot base own member same => ?_⟩
      · refine (regular.basesOnce layout there).map fun a b same => ?_
        have lists : ("@base " ++ a).toList = ("@base " ++ b).toList := congrArg String.toList same
        rw [String.toList_append, String.toList_append] at lists
        exact String.toList_inj.1 (List.append_cancel_left lists)
      · subst same
        obtain ⟨name, -, rfl⟩ := List.mem_map.1 base
        obtain ⟨own, mem, named⟩ := List.mem_map.1 member
        refine regular.membersPlain layout there own mem ?_
        have first : own.name = "@base " ++ name := named
        rw [first, String.toList_append]
        rfl

/-- no part of an object has a place twice, and no two of them have one in common -/
theorem Regular.partPlaces_nodup (regular : registry.Regular) {name : String} {ctx : Context}
    (inner : ∀ part ∈ registry.partsIn ctx.breadcrumbs name,
      (registry.places part.type (part.context (ctx.inClass name))).Nodup) :
    ((registry.partsIn ctx.breadcrumbs name).flatMap
      (registry.partPlaces (ctx.inClass name))).Nodup := by
  refine List.nodup_flatMap.2 ⟨fun part mem => ?_, ?_⟩
  · exact List.nodup_cons.2 ⟨base_notMem_places _ _, inner part mem⟩
  · have slots := List.pairwise_map.1 (regular.slots_nodup name ctx)
    refine slots.imp fun {first second} differ place inFirst inSecond => ?_
    exact differ (slot_eq_of_below (prefix_of_mem_partPlaces inFirst)
      (prefix_of_mem_partPlaces inSecond))

theorem roles_nodup (type : StreamType) : type.roles.Nodup := by
  cases type <;> simp [StreamType.roles]

/-- **No place is there twice.** -/
theorem Regular.places_nodup (regular : registry.Regular) (type : StreamType) (ctx : Context) :
    (registry.places type ctx).Nodup := by
  -- the roles at one path are different, and all that is below has longer paths
  have own (type : StreamType) (ctx : Context) :
      (type.places ctx).Nodup :=
    (roles_nodup type).map fun _ _ same => (Prod.mk.inj same).2
  induction type, ctx using registry.walk with
  | vector element ctx ih =>
    rw [places_vector]
    exact List.nodup_cons.2 ⟨notMem_places_of_slot rfl "", ih⟩
  | array element count ctx ih =>
    rw [places_array]
    exact List.nodup_cons.2 ⟨notMem_places_of_slot rfl "", ih⟩
  | map key value ctx keys values =>
    rw [places_map]
    refine List.nodup_cons.2 ⟨fun mem => ?_, List.nodup_append.2 ⟨keys, values, ?_⟩⟩
    · rcases List.mem_append.1 mem with mem | mem
      · exact notMem_places_of_slot rfl "" mem
      · exact notMem_places_of_slot rfl "" mem
    · intro place inKeys other inValues same
      subst same
      have slots : "@keys" = "@values" := slot_eq_of_below
        (prefix_of_mem_places key ctx.mapKeys place inKeys)
        (prefix_of_mem_places value ctx.mapValues place inValues)
      revert slots
      decide
  | named name ctx ih =>
    rw [places_named]
    refine List.nodup_append.2 ⟨own (.named name) ctx, regular.partPlaces_nodup ih, ?_⟩
    intro place here other below same
    subst same
    obtain ⟨role, -, rfl⟩ := List.mem_map.1 here
    obtain ⟨part, -, below⟩ := List.mem_flatMap.1 below
    have deeper := (prefix_of_mem_partPlaces below).length_le
    rw [List.length_append] at deeper
    exact Nat.not_succ_le_self _ deeper
  | _ =>
    rw [registry.places_simple rfl]
    exact own _ _

end Registry

/-! ## the kinds of a tree -/

/-- the kinds are named after some of the places, in their order -/
abbrev NamedAlong (kinds : List NodeKind) (places : List Place) : Prop :=
  List.SublistForall₂ NodeKind.NamedAfter kinds places

namespace NamedAlong

variable {kinds more : List NodeKind} {places others : List Place}

theorem append (first : NamedAlong kinds places) (second : NamedAlong more others) :
    NamedAlong (kinds ++ more) (places ++ others) := by
  induction first with
  | @nil places =>
    induction places with
    | nil => exact second
    | cons place places ih => exact .cons_right ih
  | cons named rest ih => exact .cons named ih
  | cons_right rest ih => exact .cons_right ih

/-- every kind is named after one of the places -/
theorem exists_of_mem (along : NamedAlong kinds places) {kind : NodeKind} (mem : kind ∈ kinds) :
    ∃ place ∈ places, kind.NamedAfter place := by
  induction along with
  | nil => cases mem
  | cons named rest ih =>
    rcases List.mem_cons.1 mem with rfl | mem
    · exact ⟨_, List.mem_cons_self, named⟩
    · obtain ⟨place, there, after⟩ := ih mem
      exact ⟨place, List.mem_cons_of_mem _ there, after⟩
  | cons_right rest ih =>
    obtain ⟨place, there, after⟩ := ih mem
    exact ⟨place, List.mem_cons_of_mem _ there, after⟩

/-- different places make different kinds -/
theorem nodup (along : NamedAlong kinds places) (once : places.Nodup)
    (apart : Place.Apart places) : kinds.Nodup := by
  induction along with
  | nil => exact List.nodup_nil
  | @cons kind place _ _ named rest ih =>
    obtain ⟨outside, once⟩ := List.nodup_cons.1 once
    refine List.nodup_cons.2 ⟨fun mem => ?_, ih once (apart.mono (List.subset_cons_self _ _))⟩
    obtain ⟨other, there, after⟩ := exists_of_mem rest mem
    have same : place = other := apart place List.mem_cons_self other
      (List.mem_cons_of_mem _ there) (named.placeKey_eq after)
    exact outside (same ▸ there)
  | cons_right rest ih =>
    exact ih (List.nodup_cons.1 once).2 (apart.mono (List.subset_cons_self _ _))

end NamedAlong

namespace Plan

variable {plan : Plan}

@[simp]
theorem kind_vector (element : StreamType) (skipped : Nat) (field : Option String) (ctx : Context) :
    (Contribution.vector element skipped field ctx).kind = .field (ctx.nodeName "") := by
  unfold Contribution.vector
  cases element.primitive? <;> rfl

theorem pre_vector_numbers {element : StreamType} {p : Primitive}
    (kind : element.primitive? = some p) (skipped : Nat) (field : Option String) (ctx : Context) :
    (Contribution.vector element skipped field ctx).pre = Contribution.code
      (Instruction.skipAny skipped ++
        [.length (ctx.nodeName ""), .numbers p (ctx.items.nodeName "")]) := by
  unfold Contribution.vector
  rw [kind]
  exact congrArg Contribution.code (List.append_assoc _ _ _)

theorem pre_vector_loop {element : StreamType} (kind : element.primitive? = none) (skipped : Nat)
    (field : Option String) (ctx : Context) :
    (Contribution.vector element skipped field ctx).pre = Contribution.code
      (Instruction.skipAny skipped ++ [.length (ctx.nodeName ""), .loopTaking]) := by
  unfold Contribution.vector
  rw [kind]
  exact congrArg Contribution.code (List.append_assoc _ _ _)

@[simp]
theorem kind_array (element : StreamType) (count : Nat) (field : Option String) (ctx : Context) :
    (Contribution.array element count field ctx).kind = .field (ctx.nodeName "") := by
  unfold Contribution.array
  cases element.primitive? <;> rfl

@[simp] theorem kinds_looped (start : Instruction) (node : Node) :
    (node.looped start).kinds = node.kinds := by
  cases node with
  | mk info children => rfl

/-- the nodes of a part are named after its places, if this holds of the type of the part -/
theorem partNode_along {ctx : Context} {part : Part}
    (inner : NamedAlong (plan.node part.type part.field (part.context ctx)).kinds
      (plan.registry.places part.type (part.context ctx))) :
    NamedAlong (plan.partNode ctx part).kinds (plan.registry.partPlaces ctx part) := by
  cases part with
  | base name =>
    show NamedAlong (.base ((ctx.inBase name).label name "base") :: (_ ++ [])) (_ :: _)
    rw [List.append_nil]
    exact .cons (NodeKind.namedAfter_label rfl) inner
  | member own => exact .cons_right inner

theorem partNodes_along {ctx : Context} {parts : List Part}
    (each : ∀ part ∈ parts, NamedAlong (plan.node part.type part.field (part.context ctx)).kinds
      (plan.registry.places part.type (part.context ctx))) :
    NamedAlong (Node.kindsAll (parts.map (plan.partNode ctx)))
      (parts.flatMap (plan.registry.partPlaces ctx)) := by
  induction parts with
  | nil => exact .nil
  | cons part parts ih =>
    have first := partNode_along (each part List.mem_cons_self)
    exact first.append (ih fun other mem => each other (List.mem_cons_of_mem part mem))

/-- the nodes of a tree are named after places of the type -/
theorem kinds_along (plan : Plan) (type : StreamType) (ctx : Context) (field : Option String) :
    NamedAlong (plan.node type field ctx).kinds (plan.registry.places type ctx) := by
  have own (type : StreamType) (ctx : Context) {kinds : List NodeKind}
      (along : NamedAlong kinds (type.places ctx)) :
      NamedAlong kinds (plan.registry.places type ctx) := by
    unfold Registry.places Registry.gather
    rw [← List.append_nil kinds]
    exact along.append .nil
  -- a node and the nodes below it
  have list {ctx : Context} {info : NodeInfo} {children : List Node} {below : List Place}
      (kind : info.kind = .field (ctx.nodeName ""))
      (rest : NamedAlong (Node.kindsAll children) below) :
      NamedAlong (Node.mk info children).kinds ((ctx.path, "") :: below) := by
    show NamedAlong (info.kind :: _) _
    rw [kind]
    exact .cons (NodeKind.namedAfter_field ctx "") rest
  have single {node : Node} {below : List Place} (one : NamedAlong node.kinds below) :
      NamedAlong (Node.kindsAll [node]) below := by
    show NamedAlong (node.kinds ++ []) below
    rw [List.append_nil]
    exact one
  induction type, ctx using plan.registry.walk generalizing field with
  | primitive p ctx =>
    rw [node]
    exact own (.primitive p) ctx (list rfl .nil)
  | text kind ctx =>
    refine own (.text kind) ctx ?_
    cases kind with
    | tstring =>
      rw [node]
      exact list rfl .nil
    | stdString =>
      rw [node]
      exact list rfl .nil
  | object ctx =>
    rw [node]
    refine own .object ctx (.cons (NodeKind.namedAfter_label rfl) ?_)
    exact single (list rfl .nil)
  | vector element ctx ih =>
    rw [node, Registry.places_vector]
    refine list (kind_vector element _ field ctx) ?_
    split
    · exact .nil
    · exact single (ih none)
  | array element count ctx ih =>
    rw [node, Registry.places_array]
    refine list (kind_array element _ field ctx) ?_
    split
    · exact .nil
    · exact single (ih field)
  | map key value ctx keys values =>
    rw [node, Registry.places_map]
    refine list rfl ?_
    show NamedAlong (((plan.node key none ctx.mapKeys).looped _).kinds ++
      Node.kindsAll [(plan.node value none ctx.mapValues).looped _]) _
    rw [kinds_looped]
    refine (keys none).append (single ?_)
    simpa using values none
  | named name ctx ih =>
    have below := partNodes_along (fun part mem => ih part mem part.field)
    rw [node_named, Registry.places_named]
    refine .cons (NodeKind.namedAfter_label rfl) (single ?_)
    refine .cons (NodeKind.namedAfter_label rfl) (single ?_)
    exact list rfl below
  | datime ctx | time ctx | ref ctx | refArray ctx =>
    rw [node]
    exact own _ ctx (.cons (NodeKind.namedAfter_prebuilt ctx "") .nil)

/-- **The kinds tell the nodes apart**, where no two places come to the same name. -/
theorem kinds_nodup (regular : plan.registry.Regular) (type : StreamType) (ctx : Context)
    (field : Option String) (apart : Place.Apart (plan.registry.places type ctx)) :
    (plan.node type field ctx).kinds.Nodup :=
  (plan.kinds_along type ctx field).nodup (regular.places_nodup type ctx) apart

end Plan

end Baskets
