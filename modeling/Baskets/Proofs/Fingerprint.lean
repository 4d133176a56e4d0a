import Mathlib.Data.List.Nodup
import Baskets.Proofs.Hash
import Baskets.Proofs.Reachable

/-!
# What a fingerprint tells

`Registry.description` is what the fingerprint of a registry for a type is the hash value of.  Types
and layouts can be told from what is written of them, and so can the classes of a walk, although a
class without layouts is only named and nothing says that there are none: a count of layouts has
more zeros than can stand between two names without the character NUL, and stands right behind the
name of its class.  So the description tells all layouts within reach
(`Registry.description_eq_iff`), and a fingerprint does as far as hash values do.
-/

namespace Baskets

open Hash.Form (Tells size tells_size tells_text tells_list)

/-! ## types -/

theorem Primitive.ordinal_inj {p q : Primitive} (same : p.ordinal = q.ordinal) : p = q :=
  (List.idxOf_inj (mem_all p)).1 same

theorem Primitive.ordinal_lt (p : Primitive) : p.ordinal < 11 := by
  cases p <;> decide

def TextKind.ordinal : TextKind → Nat
  | .tstring => 0
  | .stdString => 1

theorem TextKind.ordinal_inj {a b : TextKind} (same : a.ordinal = b.ordinal) : a = b := by
  cases a <;> cases b <;> first | rfl | cases same

theorem TextKind.ordinal_lt (kind : TextKind) : kind.ordinal < 2 := by
  cases kind <;> decide

namespace StreamType

/-- the number of the case -/
def ordinal : StreamType → Nat
  | .primitive _ => 0
  | .text _ => 1
  | .object => 2
  | .datime => 3
  | .time => 4
  | .ref => 5
  | .refArray => 6
  | .vector _ => 7
  | .array _ _ => 8
  | .map _ _ => 9
  | .named _ => 10

theorem ordinal_lt (type : StreamType) : type.ordinal < 11 := by
  cases type <;> simp [ordinal]

/-- what is written of a type behind the number of its case -/
def partsDescription : StreamType → List UInt8
  | .primitive p => size p.ordinal
  | .text kind => size kind.ordinal
  | .vector element => element.description
  | .array element count => element.description ++ size count.toNat
  | .map key value => key.description ++ value.description
  | .named name => Hash.Form.text name
  | _ => []

theorem description_eq (type : StreamType) :
    type.description = size type.ordinal ++ type.partsDescription := by
  cases type with
  | text kind => cases kind <;> rfl
  | array element count => exact List.append_assoc _ _ _
  | map key value => exact List.append_assoc _ _ _
  | object | datime | time | ref | refArray => exact (List.append_nil _).symm
  | _ => rfl

theorem parts_of_description {a b : StreamType} {left right : List UInt8}
    (same : a.description ++ left = b.description ++ right) :
    a.ordinal = b.ordinal ∧ a.partsDescription ++ left = b.partsDescription ++ right := by
  rw [description_eq, description_eq, List.append_assoc, List.append_assoc] at same
  exact tells_size (a.ordinal_lt.trans (by norm_num)) (b.ordinal_lt.trans (by norm_num)) same

theorem tells_description (a b : StreamType) : Tells description a b := by
  intro left right same
  obtain ⟨ordinals, parts⟩ := parts_of_description same
  induction a generalizing b left right with
  | primitive p =>
    cases b with
    | primitive q =>
      obtain ⟨numbers, behind⟩ := tells_size (p.ordinal_lt.trans (by norm_num))
        (q.ordinal_lt.trans (by norm_num)) parts
      exact ⟨congrArg primitive (Primitive.ordinal_inj numbers), behind⟩
    | _ => cases ordinals
  | text kind =>
    cases b with
    | text other =>
      obtain ⟨numbers, behind⟩ := tells_size (kind.ordinal_lt.trans (by norm_num))
        (other.ordinal_lt.trans (by norm_num)) parts
      exact ⟨congrArg text (TextKind.ordinal_inj numbers), behind⟩
    | _ => cases ordinals
  | object | datime | time | ref | refArray =>
    cases b <;> cases ordinals
    exact ⟨rfl, parts⟩
  | vector element ih =>
    cases b with
    | vector other =>
      obtain ⟨numbers, inside⟩ := parts_of_description parts
      obtain ⟨rfl, behind⟩ := ih other parts numbers inside
      exact ⟨rfl, behind⟩
    | _ => cases ordinals
  | array element count ih =>
    cases b with
    | array other otherCount =>
      unfold partsDescription at parts
      rw [List.append_assoc, List.append_assoc] at parts
      obtain ⟨numbers, inside⟩ := parts_of_description parts
      obtain ⟨rfl, counts⟩ := ih other parts numbers inside
      obtain ⟨counts, behind⟩ := tells_size count.toNat_lt otherCount.toNat_lt counts
      rw [UInt64.toNat_inj.1 counts]
      exact ⟨rfl, behind⟩
    | _ => cases ordinals
  | map key value keys values =>
    cases b with
    | map otherKey otherValue =>
      unfold partsDescription at parts
      rw [List.append_assoc, List.append_assoc] at parts
      obtain ⟨numbers, inside⟩ := parts_of_description parts
      obtain ⟨rfl, others⟩ := keys otherKey parts numbers inside
      obtain ⟨numbers, inside⟩ := parts_of_description others
      obtain ⟨rfl, behind⟩ := values otherValue others numbers inside
      exact ⟨rfl, behind⟩
    | _ => cases ordinals
  | named name =>
    cases b with
    | named other =>
      obtain ⟨rfl, behind⟩ := tells_text name other parts
      exact ⟨rfl, behind⟩
    | _ => cases ordinals

end StreamType

/-! ## layouts -/

theorem Member.tells_description (a b : Member) : Tells description a b := by
  intro left right same
  unfold description at same
  rw [List.append_assoc, List.append_assoc] at same
  obtain ⟨names, same⟩ := tells_text a.name b.name same
  obtain ⟨types, behind⟩ := StreamType.tells_description a.type b.type same
  cases a
  cases b
  cases names
  cases types
  exact ⟨rfl, behind⟩

/-- the lengths of both lists of a layout fit in a word -/
def Layout.Counted (layout : Layout) : Prop :=
  layout.bases.length < 2 ^ 64 ∧ layout.members.length < 2 ^ 64

instance (layout : Layout) : Decidable layout.Counted := inferInstanceAs (Decidable (_ ∧ _))

theorem Layout.tells_description {a b : Layout} (counted : a.Counted) (counted' : b.Counted) :
    Tells description a b := by
  intro left right same
  unfold description at same
  simp only [List.append_assoc] at same
  obtain ⟨names, same⟩ := tells_text a.name b.name same
  obtain ⟨versions, same⟩ :=
    Hash.Form.tells_littleOf a.version.toNat_lt b.version.toNat_lt same
  obtain ⟨bases, same⟩ := tells_list counted.1 counted'.1 (fun x _ y _ => tells_text x y) same
  obtain ⟨members, behind⟩ :=
    tells_list counted.2 counted'.2 (fun x _ y _ => Member.tells_description x y) same
  cases a
  cases b
  cases names
  cases UInt16.toNat_inj.1 versions
  cases bases
  cases members
  exact ⟨rfl, behind⟩

namespace Registry

variable {registry first second : Registry} {type : StreamType} {name : String}

/-! ## the walk -/

theorem forall_reach {P : String → Prop} {pending : List String} (seen : List String)
    (closed : ∀ outer, P outer → ∀ name ∈ registry.mentioned outer, P name)
    (start : ∀ name ∈ pending, P name) : ∀ name ∈ registry.reach pending seen, P name := by
  fun_induction registry.reach pending seen with
  | case1 => exact start
  | case2 name pending seen old ih =>
    exact ih fun other mem => start other (List.mem_cons_of_mem _ mem)
  | case3 name pending seen new ih =>
    have here := start name List.mem_cons_self
    refine List.forall_mem_cons.2 ⟨here, ih fun other mem => ?_⟩
    rcases List.mem_append.1 mem with mem | mem
    · exact closed name here other mem
    · exact start other (List.mem_cons_of_mem _ mem)

theorem pending_subset_reach (registry : Registry) (pending seen : List String) :
    pending ⊆ registry.reach pending seen ++ seen := by
  fun_induction registry.reach pending seen with
  | case1 => exact List.nil_subset _
  | case2 name pending seen old ih => exact List.cons_subset.2 ⟨List.mem_append_right _ old, ih⟩
  | case3 name pending seen new ih =>
    refine List.cons_subset.2 ⟨List.mem_cons_self, fun other mem => ?_⟩
    have found := ih (List.mem_append_right _ mem)
    simp only [List.mem_append, List.mem_cons] at found ⊢
    tauto

theorem mentioned_subset_reach {pending seen : List String} {outer : String}
    (visited : outer ∈ registry.reach pending seen) :
    registry.mentioned outer ⊆ registry.reach pending seen ++ seen := by
  fun_induction registry.reach pending seen with
  | case1 => cases visited
  | case2 name pending seen old ih => exact ih visited
  | case3 name pending seen new ih =>
    intro other mem
    have found : other ∈ registry.reach (registry.mentioned name ++ pending) (name :: seen) ++
        name :: seen := by
      rcases List.mem_cons.1 visited with rfl | visited
      · exact registry.pending_subset_reach _ _ (List.mem_append_left _ mem)
      · exact ih visited mem
    simp only [List.mem_append, List.mem_cons] at found ⊢
    tauto

/-- the walk finds just the classes that a value of the type can hold -/
theorem mem_reachable_iff : name ∈ registry.reachable type ↔ registry.CanHold type name := by
  refine ⟨fun mem => ?_, fun held => ?_⟩
  · exact forall_reach [] (fun _ held _ mem => held.mentioned mem) (fun _ => .itself) name mem
  · refine held.mem_of_closed (fun other mem => ?_) fun outer visited other mem => ?_
    · have found := registry.pending_subset_reach _ [] mem
      rwa [List.append_nil] at found
    · have found := mentioned_subset_reach visited mem
      rwa [List.append_nil] at found

/-! ## names and counts -/

theorem length_ofClass_le (registry : Registry) (name : String) :
    (registry.ofClass name).length ≤ 65536 := by
  have versions : ((registry.ofClass name).map fun layout => layout.version.toNat).Nodup :=
    List.pairwise_map.2 ((registry.ofClass_ascending name).imp Nat.ne_of_lt)
  have bound : ((registry.ofClass name).map fun layout => layout.version.toNat) ⊆
      List.range 65536 := by
    intro number mem
    obtain ⟨layout, -, rfl⟩ := List.mem_map.1 mem
    exact List.mem_range.2 layout.version.toNat_lt
  have lengths := (versions.subperm bound).length_le
  rwa [List.length_map, List.length_range] at lengths

/-- what a description can be read back from: the names of classes have no NUL, and lists have
lengths that fit in a word, as all lists in memory have -/
structure Legible (registry : Registry) : Prop where
  names : ∀ layout ∈ registry.layouts, ∀ name ∈ layout.name :: layout.classes, '\x00' ∉ name.toList
  counted : ∀ layout ∈ registry.layouts, layout.Counted

theorem Legible.mentioned (legible : registry.Legible) (outer : String) :
    ∀ name ∈ registry.mentioned outer, '\x00' ∉ name.toList := by
  intro name mem
  obtain ⟨layout, known, mem⟩ := List.mem_flatMap.1 mem
  exact legible.names layout (List.mem_filter.1 known).1 name (List.mem_cons_of_mem _ mem)

theorem classDescription_of_unknown (unknown : registry.ofClass name = []) :
    registry.classDescription name = Hash.Form.text name := by
  unfold classDescription
  rw [unknown]

theorem classDescription_of_known (known : registry.ofClass name ≠ []) :
    registry.classDescription name = Hash.Form.text name ++ (size (registry.ofClass name).length ++
      (registry.ofClass name).flatMap Layout.description) := by
  unfold classDescription
  split
  · contradiction
  · rfl

/-- what is written of some classes begins with names, and a count stands behind one of them -/
theorem exists_names {names : List String} (plain : ∀ name ∈ names, '\x00' ∉ name.toList) :
    ∃ front back, names.flatMap registry.classDescription = front ++ back ∧ 0 ∉ front ∧
      (back = [] ∨ front ≠ [] ∧ ∃ count rest, count ≤ 65536 ∧ back = size count ++ rest) := by
  induction names with
  | nil => exact ⟨[], [], rfl, List.not_mem_nil, .inl rfl⟩
  | cons name names ih =>
    have here := Hash.Form.zero_notMem_text (plain name List.mem_cons_self)
    rw [List.flatMap_cons]
    by_cases unknown : registry.ofClass name = []
    · obtain ⟨front, back, others, nonzero, counts⟩ :=
        ih fun other mem => plain other (List.mem_cons_of_mem _ mem)
      refine ⟨Hash.Form.text name ++ front, back, ?_, ?_, counts.imp_right fun counts => ?_⟩
      · rw [classDescription_of_unknown unknown, others, List.append_assoc]
      · rw [List.mem_append]
        exact not_or.2 ⟨here, nonzero⟩
      · exact ⟨List.append_ne_nil_of_right_ne_nil _ counts.1, counts.2⟩
    · have counted := registry.length_ofClass_le name
      rw [classDescription_of_known unknown, List.append_assoc, List.append_assoc]
      exact ⟨_, _, rfl, here, .inr ⟨Hash.Form.text_ne_nil name, _, _, counted, rfl⟩⟩

/-- no count stands where a name would: the five zeros that end a small count would have to be among
those of a count further behind, of which there would be more -/
theorem size_append_ne {count : Nat} (small : count ≤ 65536) {byte : UInt8} (nonzero : byte ≠ 0)
    (rest : List UInt8) {names : List String} (plain : ∀ name ∈ names, '\x00' ∉ name.toList) :
    size count ++ byte :: rest ≠ names.flatMap registry.classDescription := by
  intro same
  obtain ⟨front, back, split, inFront, counts⟩ := @exists_names registry names plain
  obtain ⟨a, b, c, digits⟩ := Hash.Form.exists_size_eq (small.trans_lt (by norm_num))
  rw [split, digits] at same
  rcases counts with rfl | ⟨something, other, behind, small', rfl⟩
  · rw [List.append_nil] at same
    exact inFront (same ▸ by simp)
  · obtain ⟨a', b', c', digits'⟩ := Hash.Form.exists_size_eq (small'.trans_lt (by norm_num))
    rw [digits'] at same
    match front with
    | [] => exact something rfl
    | [_] | [_, _] | [_, _, _] => simp_all
    | _ :: _ :: _ :: _ :: _ => simp_all

/-- a class that is only named is not mistaken for one with layouts -/
theorem ofClass_eq_nil_of_same {names : List String} {rest : List UInt8}
    (plain : ∀ other ∈ name :: names, '\x00' ∉ other.toList)
    (unknown : first.ofClass name = [])
    (same : first.classDescription name ++ names.flatMap first.classDescription =
      second.classDescription name ++ rest) :
    second.ofClass name = [] := by
  by_contra known
  have counted := second.length_ofClass_le name
  have own : ∀ layout ∈ second.ofClass name, layout.name = name := fun layout mem =>
    of_decide_eq_true (List.mem_filter.1 mem).2
  rw [classDescription_of_unknown unknown, classDescription_of_known known, List.append_assoc,
    List.append_cancel_left_eq] at same
  obtain ⟨layout, layouts, all⟩ := List.exists_cons_of_ne_nil known
  obtain ⟨byte, others, letters⟩ := List.exists_cons_of_ne_nil (Hash.Form.text_ne_nil name)
  have nonzero : byte ≠ 0 := by
    have here := Hash.Form.zero_notMem_text (plain name List.mem_cons_self)
    rw [letters] at here
    exact fun zero => here (zero ▸ List.mem_cons_self)
  rw [all, List.flatMap_cons] at same
  unfold Layout.description at same
  rw [own layout (all ▸ List.mem_cons_self), letters] at same
  simp only [List.append_assoc, List.cons_append] at same
  exact size_append_ne (all ▸ counted) nonzero _
    (fun other mem => plain other (List.mem_cons_of_mem _ mem)) same.symm

/-- what is said of a class can be told from what is said of the classes behind it -/
theorem ofClass_eq_of_same (legible : first.Legible) (legible' : second.Legible)
    {names names' : List String} (plain : ∀ other ∈ name :: names, '\x00' ∉ other.toList)
    (plain' : ∀ other ∈ name :: names', '\x00' ∉ other.toList)
    (same : first.classDescription name ++ names.flatMap first.classDescription =
      second.classDescription name ++ names'.flatMap second.classDescription) :
    first.ofClass name = second.ofClass name ∧
      names.flatMap first.classDescription = names'.flatMap second.classDescription := by
  by_cases unknown : first.ofClass name = []
  · have unknown' := ofClass_eq_nil_of_same plain unknown same
    rw [classDescription_of_unknown unknown, classDescription_of_unknown unknown',
      List.append_cancel_left_eq] at same
    exact ⟨unknown.trans unknown'.symm, same⟩
  · have known : second.ofClass name ≠ [] := fun unknown' =>
      unknown (ofClass_eq_nil_of_same plain' unknown' same.symm)
    have short (registry : Registry) : (registry.ofClass name).length < 2 ^ 64 :=
      (registry.length_ofClass_le name).trans_lt (by norm_num)
    rw [classDescription_of_known unknown, classDescription_of_known known] at same
    simp only [List.append_assoc, List.append_cancel_left_eq] at same
    rw [← List.append_assoc, ← List.append_assoc] at same
    refine tells_list (short first) (short second) (fun a inFirst b inSecond => ?_) same
    exact Layout.tells_description (legible.counted a (List.mem_filter.1 inFirst).1)
      (legible'.counted b (List.mem_filter.1 inSecond).1)

/-- walks that say the same find the same layouts -/
theorem ofClass_eq_of_walk (legible : first.Legible) (legible' : second.Legible)
    {pending seen : List String} (plain : ∀ name ∈ pending, '\x00' ∉ name.toList)
    (same : (first.reach pending seen).flatMap first.classDescription =
      (second.reach pending seen).flatMap second.classDescription) :
    ∀ name ∈ first.reach pending seen, first.ofClass name = second.ofClass name := by
  fun_induction first.reach pending seen with
  | case1 => exact fun _ mem => absurd mem List.not_mem_nil
  | case2 name pending seen old ih =>
    rw [reach, if_pos old] at same
    exact ih (fun other mem => plain other (List.mem_cons_of_mem _ mem)) same
  | case3 name pending seen new ih =>
    rw [reach, if_neg new, List.flatMap_cons, List.flatMap_cons] at same
    have next {registry : Registry} (legible : registry.Legible) :
        ∀ other ∈ registry.mentioned name ++ pending, '\x00' ∉ other.toList := by
      intro other mem
      rcases List.mem_append.1 mem with mem | mem
      · exact legible.mentioned name other mem
      · exact plain other (List.mem_cons_of_mem _ mem)
    have walked {registry : Registry} (legible : registry.Legible) :
        ∀ other ∈ name :: registry.reach (registry.mentioned name ++ pending) (name :: seen),
          '\x00' ∉ other.toList :=
      List.forall_mem_cons.2 ⟨plain name List.mem_cons_self,
        forall_reach _ (fun outer _ => legible.mentioned outer) (next legible)⟩
    obtain ⟨layouts, same⟩ :=
      ofClass_eq_of_same legible legible' (walked legible) (walked legible') same
    have mentions : second.mentioned name = first.mentioned name := by
      unfold mentioned
      rw [layouts]
    rw [mentions] at same
    exact List.forall_mem_cons.2 ⟨layouts, ih (next legible) same⟩

end Registry

/-- **The description tells every layout within reach.**  Where no name of a class has a NUL, the
same is written of two registries for a type just when they have the same layouts, in all versions,
of each class that a value of the type can hold, in the one registry or in the other.  So a class
that is registered in one of them only always makes a difference. -/
theorem Registry.description_eq_iff {first second : Registry} {type : StreamType}
    (plain : ∀ name ∈ type.classes, '\x00' ∉ name.toList) (legible : first.Legible)
    (legible' : second.Legible) :
    first.description type = second.description type ↔
      ∀ name, first.CanHold type name ∨ second.CanHold type name →
        first.ofClass name = second.ofClass name := by
  refine ⟨fun same name held => ?_, fun same => reach_congr (fun name held => same name (.inl held))
    [] fun _ => .itself⟩
  rcases held with held | held
  · exact ofClass_eq_of_walk legible legible' plain same name (mem_reachable_iff.2 held)
  · exact (ofClass_eq_of_walk legible' legible plain same.symm name (mem_reachable_iff.2 held)).symm

/-! ### woods -/

/-- woods with birds on old branches -/
def birdWoods : Registry := woods.register { name := "Branch", version := 1, bases := ["Bird"] }

/-- the same birds, with two wings each -/
def wingedWoods : Registry :=
  birdWoods.register { name := "Bird", version := 1, members := [⟨"wings", .array .datime 2⟩] }

/-- both mention birds, but only in one of them birds have a layout -/
theorem description_ne_wingedWoods :
    (∀ name ∈ (StreamType.named "Tree").classes, '\x00' ∉ name.toList) ∧
    birdWoods.Legible ∧ wingedWoods.Legible ∧
    birdWoods.CanHold (.named "Tree") "Bird" ∧
    birdWoods.description (.named "Tree") ≠ wingedWoods.description (.named "Tree") := by
  have plain : ∀ name ∈ (StreamType.named "Tree").classes, '\x00' ∉ name.toList := by decide
  have legible : birdWoods.Legible := ⟨by decide, by decide⟩
  have legible' : wingedWoods.Legible := ⟨by decide, by decide⟩
  have held : birdWoods.CanHold (.named "Tree") "Bird" := by
    have branch : birdWoods.CanHold (.named "Tree") "Branch" :=
      .mentioned (.itself (List.mem_singleton.2 rfl)) (by decide)
    exact .mentioned branch (by decide)
  refine ⟨plain, legible, legible', held, fun same => ?_⟩
  have layouts := (Registry.description_eq_iff plain legible legible').1 same "Bird" (.inl held)
  revert layouts
  decide

end Baskets
