import Mathlib.Data.List.Sort
import Baskets.Fingerprint
import Baskets.Proofs.Trace.Reading

/-!
# What a type can reach

A value of a type holds objects of the classes that the type mentions, of those that a layout of
such a class mentions, and so on (`Registry.CanHold`), whatever versions the objects have.  Other
layouts do not matter.  Two registries that agree on these classes read the type alike, value,
cursor and generator, and have one fingerprint for it (`Registry.read_and_fingerprint_congr`).
-/

namespace Baskets

/-! ## layouts by version -/

namespace Registry

variable {registry first second : Registry} {name : String}

theorem ofClass_ascending (registry : Registry) (name : String) :
    (registry.ofClass name).Pairwise fun a b => a.version < b.version := by
  refine List.Pairwise.imp_of_mem ?_ (registry.ordered.filter _)
  intro a b here there before
  have nameA := of_decide_eq_true (List.mem_filter.1 here).2
  have nameB := of_decide_eq_true (List.mem_filter.1 there).2
  exact before.resolve_right fun same => same.2 (nameA.trans nameB.symm)

/-- a class has no version twice -/
theorem eq_of_version_eq {a b : Layout} (here : a ∈ registry.ofClass name)
    (there : b ∈ registry.ofClass name) (same : a.version = b.version) : a = b := by
  have versions : ((registry.ofClass name).map Layout.version).Nodup :=
    List.pairwise_map.2 ((registry.ofClass_ascending name).imp UInt16.ne_of_lt)
  exact List.inj_on_of_nodup_map versions here there same

theorem get?_eq_some_iff {layout : Layout} {version : Nat} :
    registry.get? name version = some layout ↔
      layout ∈ registry.ofClass name ∧ layout.version.toNat = version := by
  unfold get?
  refine ⟨fun found => ?_, fun ⟨mem, number⟩ => ?_⟩
  · have version := List.find?_some found
    exact ⟨List.mem_of_find?_eq_some found, of_decide_eq_true version⟩
  · cases found : (registry.ofClass name).find? fun layout => layout.version.toNat = version with
    | none =>
      have none := List.find?_eq_none.1 found layout mem
      exact absurd (decide_eq_true number) none
    | some other =>
      have version := List.find?_some found
      have version := (of_decide_eq_true version).trans number.symm
      rw [eq_of_version_eq (List.mem_of_find?_eq_some found) mem (UInt16.toNat_inj.1 version)]

/-- the layouts of a class are told by its map of versions -/
theorem ofClass_eq_of_get?_eq
    (same : ∀ version, first.get? name version = second.get? name version) :
    first.ofClass name = second.ofClass name := by
  have : Std.Antisymm fun a b : Layout => a.version < b.version :=
    ⟨fun _ _ less more => absurd more (UInt16.lt_asymm less)⟩
  have : Std.Irrefl fun a b : Layout => a.version < b.version := ⟨fun _ => UInt16.lt_irrefl _⟩
  refine (ofClass_ascending first name).eq_of_mem_iff (ofClass_ascending second name) ?_
  intro layout
  have one {registry : Registry} : layout ∈ registry.ofClass name ↔
      registry.get? name layout.version.toNat = some layout := by
    rw [get?_eq_some_iff, and_iff_left rfl]
  rw [one, one, same]

/-! ## classes within reach -/

/-- objects of the class can be in a value of the type: the type mentions the class, or some version
of another such class does, as a base or in a member -/
inductive CanHold (registry : Registry) (type : StreamType) : String → Prop where
  | itself {name : String} (mentioned : name ∈ type.classes) : CanHold registry type name
  | inside {outer name : String} {layout : Layout} (held : CanHold registry type outer)
    (known : layout ∈ registry.ofClass outer) (mentioned : name ∈ layout.classes) :
    CanHold registry type name

variable {type : StreamType}

theorem CanHold.mentioned {outer : String} (held : registry.CanHold type outer)
    (mem : name ∈ registry.mentioned outer) : registry.CanHold type name := by
  obtain ⟨layout, known, mentioned⟩ := List.mem_flatMap.1 mem
  exact .inside held known mentioned

/-- a list of classes that mentions no others has all that can be held -/
theorem CanHold.mem_of_closed {names : List String} (held : registry.CanHold type name)
    (start : type.classes ⊆ names)
    (closed : ∀ outer ∈ names, registry.mentioned outer ⊆ names) : name ∈ names := by
  induction held with
  | itself mentioned => exact start mentioned
  | inside held known mentioned ih =>
    exact closed _ ih (List.mem_flatMap.2 ⟨_, known, mentioned⟩)

end Registry

/-! ## reading -/

theorem StreamType.classes_ofClass_subset (name : String) :
    (StreamType.ofClass name).classes ⊆ [name] := by
  unfold StreamType.ofClass
  split_ifs <;> simp [StreamType.classes]

theorem Layout.base_mem_classes {layout : Layout} {base : String} (mem : base ∈ layout.bases) :
    base ∈ layout.classes :=
  List.mem_append_left _ mem

theorem Layout.member_mem_classes {layout : Layout} {member : Member} {name : String}
    (mem : member ∈ layout.members) (mentioned : name ∈ member.type.classes) :
    name ∈ layout.classes :=
  List.mem_append_right _ (List.mem_flatMap.2 ⟨member, mem, mentioned⟩)

namespace Reading

/-- only the readers of the classes in a type matter -/
theorem streamed_congr {f g : String → Reader} (type : StreamType)
    (same : ∀ name ∈ type.classes, f name = g name) : streamed f type = streamed g type := by
  induction type with
  | vector element ih => exact congrArg (vector element) (ih same)
  | array element count ih => exact congrArg (array element count.toNat) (ih same)
  | map key value keys values =>
    have left := keys fun name mem => same name (List.mem_append_left _ mem)
    have right := values fun name mem => same name (List.mem_append_right _ mem)
    exact congrArg₂ map left right
  | named name => exact same name (List.mem_singleton.2 rfl)
  | _ => rfl

theorem bases_congr {f g : String → Reader} (ctx : Context) {names : List String}
    (same : ∀ base ∈ names, f base = g base) : bases f ctx names = bases g ctx names := by
  induction names with
  | nil => rfl
  | cons base rest ih =>
    unfold bases
    rw [same base List.mem_cons_self, ih fun other mem => same other (List.mem_cons_of_mem _ mem)]

theorem members_congr {f g : StreamType → Reader} (ctx : Context) {slots : List Member}
    (same : ∀ member ∈ slots, f member.type = g member.type) :
    members f ctx slots = members g ctx slots := by
  induction slots with
  | nil => rfl
  | cons member rest ih =>
    unfold members
    rw [same member List.mem_cons_self, ih fun other mem => same other (List.mem_cons_of_mem _ mem)]

/-- an object is read by the readers of the classes in its layout -/
theorem body_congr {f g : String → Reader} (className : String) {opening : Opening}
    (same : ∀ name ∈ opening.layout.classes, f name = g name) :
    body (streamed f) className opening = body (streamed g) className opening := by
  have ofBase : ∀ base ∈ opening.layout.bases, streamed f (.ofClass base) =
      streamed g (.ofClass base) := by
    intro base mem
    refine streamed_congr _ fun name mentioned => ?_
    rw [List.mem_singleton.1 (StreamType.classes_ofClass_subset base mentioned)]
    exact same base (Layout.base_mem_classes mem)
  have ofMember : ∀ member ∈ opening.layout.members, streamed f member.type =
      streamed g member.type := fun member mem =>
    streamed_congr _ fun name mentioned => same name (Layout.member_mem_classes mem mentioned)
  funext field outer
  have inBases := bases_congr (outer.inClass className) ofBase
  have inMembers := members_congr (outer.inClass className) ofMember
  unfold body
  dsimp only
  rw [inBases, inMembers]

variable {first second : Registry} {type : StreamType}

theorem openObject_congr {className : String}
    (same : first.ofClass className = second.ofClass className) :
    openObject first className = openObject second className := by
  unfold openObject Registry.latest? Registry.get?
  rw [same]

/-- the layout of an object that was opened is one of its class -/
theorem layout_mem_of_openObject {registry : Registry} {className : String} {ctx : Context}
    {p q : Progress} {opening : Opening}
    (opened : (openObject registry className ctx).run p = (.ok opening, q)) :
    opening.layout ∈ registry.ofClass className := by
  obtain ⟨latest, header, -, known, -, -, chosen, -, -⟩ := openObject_ok registry opened
  rw [chosen]
  cases got : registry.get? className header.version with
  | none => exact List.mem_of_getLast? known
  | some layout => exact (Registry.get?_eq_some_iff.1 got).1

theorem named_congr
    (same : ∀ name, first.CanHold type name → first.ofClass name = second.ofClass name)
    (depth : Nat) {className : String} (held : first.CanHold type className) :
    named first depth className = named second depth className := by
  induction depth generalizing className with
  | zero =>
    unfold named
    rw [openObject_congr (same className held)]
  | succ depth ih =>
    funext field ctx p
    show (openObject first className ctx >>= _).run p = (openObject second className ctx >>= _).run p
    rw [← openObject_congr (same className held), run_bind, run_bind]
    refine carry_congr fun opening q opened => ?_
    have known := layout_mem_of_openObject opened
    rw [body_congr className fun name mentioned => ih (.inside held known mentioned)]

end Reading

/-! ## fingerprints -/

namespace Registry

variable {first second : Registry} {type : StreamType}

/-- both walks find the same classes, and say the same of each -/
theorem reach_congr
    (same : ∀ name, first.CanHold type name → first.ofClass name = second.ofClass name)
    {pending : List String} (seen : List String) (held : ∀ name ∈ pending, first.CanHold type name) :
    (first.reach pending seen).flatMap first.classDescription =
      (second.reach pending seen).flatMap second.classDescription := by
  fun_induction first.reach pending seen with
  | case1 =>
    rw [reach]
    rfl
  | case2 name pending seen old ih =>
    rw [reach, if_pos old]
    exact ih fun other mem => held other (List.mem_cons_of_mem _ mem)
  | case3 name pending seen new ih =>
    have here := held name List.mem_cons_self
    have layouts := same name here
    have inside : ∀ other ∈ first.mentioned name ++ pending, first.CanHold type other := by
      intro other mem
      rcases List.mem_append.1 mem with mem | mem
      · exact here.mentioned mem
      · exact held other (List.mem_cons_of_mem _ mem)
    have mentions : second.mentioned name = first.mentioned name := by
      unfold mentioned
      rw [layouts]
    have described : first.classDescription name = second.classDescription name := by
      unfold classDescription
      rw [layouts]
    rw [reach, if_neg new, List.flatMap_cons, List.flatMap_cons, mentions, described, ih inside]

end Registry

/-- **Layouts out of reach do not matter.**  Where two registries have the same layout for each
version of each class that a value of the type can hold, they read the type alike, from every
cursor, with every generator or none, and come to the same value or fault at the same position with
the same generator; and the fingerprints of the type are equal. -/
theorem Registry.read_and_fingerprint_congr {first second : Registry} {type : StreamType}
    (same : ∀ name, first.CanHold type name → ∀ version,
      first.get? name version = second.get? name version) :
    (∀ (field : Option String) (ctx : Context) (progress : Progress),
      (first.read type field ctx).run progress = (second.read type field ctx).run progress) ∧
      first.fingerprint type = second.fingerprint type := by
  have layouts := fun name held => ofClass_eq_of_get?_eq (same name held)
  refine ⟨fun field ctx progress => ?_, congrArg Hash.value (reach_congr layouts [] fun _ => .itself)⟩
  have readers := Reading.streamed_congr type fun name mentioned =>
    Reading.named_congr layouts (progress.cursor.remaining / 2) (.itself mentioned)
  show (Reading.streamed _ type field ctx).run progress = (Reading.streamed _ type field ctx).run progress
  rw [readers]

/-! ### woods -/

/-- trees and their branches, which can have trees on them -/
def woods : Registry where
  layouts :=
    [{ name := "Tree", version := 1, bases := ["TObject"],
       members := [⟨"branches", .vector (.named "Branch")⟩] },
      { name := "Branch", version := 1, members := [⟨"leaves", .vector (.primitive .uint8)⟩] },
      { name := "Branch", version := 2, members := [⟨"trees", .map .datime (.named "Tree")⟩] }]
  ordered := by simp [Layout.precedes]

/-- the same trees between stones -/
def stonyWoods : Registry :=
  woods.register { name := "Stone", version := 1, members := [⟨"under", .named "Tree"⟩] }

theorem read_and_fingerprint_congr_woods :
    (∀ name, woods.CanHold (.named "Tree") name → ∀ version,
      woods.get? name version = stonyWoods.get? name version) ∧
    woods.ofClass "Stone" ≠ stonyWoods.ofClass "Stone" ∧
    (∀ (field : Option String) (ctx : Context) (progress : Progress),
      (woods.read (.named "Tree") field ctx).run progress =
        (stonyWoods.read (.named "Tree") field ctx).run progress) ∧
    woods.fingerprint (.named "Tree") = stonyWoods.fingerprint (.named "Tree") := by
  have same : ∀ name, woods.CanHold (.named "Tree") name → ∀ version,
      woods.get? name version = stonyWoods.get? name version := by
    intro name held version
    have mem : name ∈ ["Tree", "Branch", "TObject"] :=
      held.mem_of_closed (by decide) (by decide)
    have layouts : woods.ofClass name = stonyWoods.ofClass name := by
      clear held
      revert name
      decide
    unfold Registry.get?
    rw [layouts]
  exact ⟨same, by decide, Registry.read_and_fingerprint_congr same⟩

end Baskets
