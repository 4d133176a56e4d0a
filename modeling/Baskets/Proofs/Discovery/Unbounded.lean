import Mathlib.Logic.Relation
import Baskets.Proofs.Discovery

/-!
# Types without end

A class is without end if objects of it can hold objects of the same class, as a base, in a member,
or through other classes.  The tree of a decoder cannot show all of such a type, and a read with a
generator sees to it: where it meets an object inside one of its own class it refuses, and where an
empty list keeps it from meeting one the entry counts as incomplete.  The reason is in the traces: a
complete trace has an object of every class that its type can come to (`Registry.Shown.along`), and
no object in it stands inside one of its own class.  So an unbounded type never has a model,
whatever its baskets are (`Registry.no_model_of_unbounded`).
-/

namespace Baskets

/-! ## classes inside classes -/

namespace Registry

/-- there is one layout of each class -/
def Single (registry : Registry) : Prop :=
  ∀ a ∈ registry.layouts, ∀ b ∈ registry.layouts, a.name = b.name → a = b

/-- a base or a member of the class `outer` is of a type that mentions the class `name`, where
classes with a layout of their own are not looked up -/
def Inside (registry : Registry) (outer name : String) : Prop :=
  ∃ layout ∈ registry.ofClass outer, ∃ part ∈ layout.parts, name ∈ part.type.classes

/-- the type comes to a class that comes to itself -/
def Unbounded (registry : Registry) (type : StreamType) : Prop :=
  ∃ start ∈ type.classes, ∃ name, Relation.ReflTransGen registry.Inside start name ∧
    Relation.TransGen registry.Inside name name

variable {registry : Registry} {name outer : String}

/-- where a class has one layout, every object of it is read by this one -/
theorem Single.chosen_eq (single : registry.Single) {latest layout : Layout}
    (known : registry.latest? name = some latest) (mem : layout ∈ registry.ofClass name)
    (version : Nat) : (registry.get? name version).getD latest = layout := by
  have same : ∀ other ∈ registry.ofClass name, other = layout := by
    intro other there
    obtain ⟨here, named⟩ := List.mem_filter.1 there
    obtain ⟨hereToo, namedToo⟩ := List.mem_filter.1 mem
    exact single other here layout hereToo
      ((of_decide_eq_true named).trans (of_decide_eq_true namedToo).symm)
  cases got : registry.get? name version with
  | none => exact same latest (List.mem_of_getLast? known)
  | some other => exact same other (List.mem_of_find?_eq_some got)

/-! ## complete traces -/

/-- a complete trace of an object of the class was read inside objects of these classes -/
def Shown (registry : Registry) (around : List String) (name : String) : Prop :=
  ∃ (trace : Trace) (ctx : Context) (c d : Cursor),
    trace.Reads registry true (.named name) ctx c d ∧
      trace.complete = true ∧ ctx.breadcrumbs = around

end Registry

namespace Trace

variable {registry : Registry} {type : StreamType} {ctx : Context} {c d : Cursor} {trace : Trace}
  {items traces : List Trace} {parts : List Part}

/-- where there are elements and all are complete, one is -/
theorem ReadsAll.exists_complete (all : ReadsAll registry true type ctx c items d)
    (some_ : items ≠ []) (complete : completeAll items = true) :
    ∃ (item : Trace) (c d : Cursor), item.Reads registry true type ctx c d ∧
      item.complete = true := by
  cases all with
  | nil => exact absurd rfl some_
  | cons first rest => exact ⟨_, _, _, first, (Bool.and_eq_true_iff.1 complete).1⟩

/-- a list of numbers mentions no class, and every other complete list has an element -/
theorem ReadsAll.exists_complete_of_list {name : String}
    (all : ReadsAll registry true type ctx c items d)
    (complete : (type.primitive?.isSome || (!items.isEmpty && completeAll items)) = true)
    (mentioned : name ∈ type.classes) :
    ∃ (item : Trace) (c d : Cursor), item.Reads registry true type ctx c d ∧
      item.complete = true := by
  cases kind : type.primitive? with
  | some p =>
    rw [StreamType.eq_primitive kind] at mentioned
    cases mentioned
  | none =>
    rw [kind] at complete
    obtain ⟨some_, each⟩ := Bool.and_eq_true_iff.1 complete
    refine all.exists_complete (fun none => ?_) each
    rw [none] at some_
    cases some_

/-- all parts of a complete object are complete -/
theorem ReadsParts.exists_complete (all : ReadsParts registry true ctx parts c traces d)
    (complete : completeParts parts traces = true) {part : Part} (mem : part ∈ parts) :
    ∃ (trace : Trace) (c d : Cursor),
      trace.Reads registry true part.type (part.context ctx) c d ∧ trace.complete = true := by
  induction traces generalizing parts c with
  | nil =>
    cases all
    cases mem
  | cons trace traces ih =>
    cases all with
    | cons first rest =>
      obtain ⟨own, others⟩ := Bool.and_eq_true_iff.1 complete
      rcases List.mem_cons.1 mem with rfl | mem
      · exact ⟨_, _, _, first, own⟩
      · exact ih rest others mem

/-- a complete trace shows every class that the type mentions -/
theorem Reads.shown {name : String} (reads : trace.Reads registry true type ctx c d)
    (complete : trace.complete = true) (mentioned : name ∈ type.classes) :
    registry.Shown ctx.breadcrumbs name := by
  induction type generalizing ctx c d trace with
  | vector element ih =>
    have inElement : name ∈ element.classes := mentioned
    cases reads with
    | vector before count all =>
      obtain ⟨item, _, _, one, full⟩ := all.exists_complete_of_list complete inElement
      have shown := ih one full inElement
      exact shown
  | array element count ih =>
    have inElement : name ∈ element.classes := mentioned
    cases reads with
    | array length all =>
      obtain ⟨item, _, _, one, full⟩ := all.exists_complete_of_list complete inElement
      have shown := ih one full inElement
      exact shown
  | map key value inKey inValue =>
    cases reads with
    | map before count same allKeys allValues =>
      obtain ⟨some_, both⟩ := Bool.and_eq_true_iff.1 complete
      obtain ⟨eachKey, eachValue⟩ := Bool.and_eq_true_iff.1 both
      rcases List.mem_append.1 mentioned with mentioned | mentioned
      · obtain ⟨item, _, _, one, full⟩ := allKeys.exists_complete
          (fun none => by rw [none] at some_; cases some_) eachKey
        have shown := inKey one full mentioned
        exact shown
      · obtain ⟨item, _, _, one, full⟩ := allValues.exists_complete
          (fun none => by
            rw [none] at same
            rw [List.length_eq_zero_iff.1 same.symm] at some_
            cases some_) eachValue
        have shown := inValue one full mentioned
        exact shown
  | named own =>
    rw [List.mem_singleton.1 mentioned]
    exact ⟨trace, ctx, c, d, reads, complete, rfl⟩
  | _ => cases mentioned

end Trace

namespace Registry.Shown

variable {registry : Registry} {around : List String} {name outer : String}

/-- no object is shown inside one of its own class -/
theorem outside (shown : registry.Shown around name) : name ∉ around := by
  obtain ⟨trace, ctx, c, d, reads, -, rfl⟩ := shown
  cases reads with
  | object outside known takes chosen all => exact outside rfl

/-- with an object, all that can be inside it is shown -/
theorem step (single : registry.Single) (shown : registry.Shown around outer)
    (inside : registry.Inside outer name) : registry.Shown (around ++ [outer]) name := by
  obtain ⟨layout, mem, part, there, mentioned⟩ := inside
  obtain ⟨trace, ctx, c, d, reads, complete, rfl⟩ := shown
  cases reads with
  | object outside known takes chosen all =>
    obtain rfl := chosen.trans (single.chosen_eq known mem _)
    obtain ⟨inner, _, _, one, full⟩ := all.exists_complete complete there
    have shown := one.shown full mentioned
    rw [part.breadcrumbs_context] at shown
    exact shown

/-- from class to class, each inside an object of the one before -/
theorem along (single : registry.Single) (shown : registry.Shown around outer)
    (path : Relation.TransGen registry.Inside outer name) :
    ∃ between, registry.Shown (around ++ outer :: between) name := by
  induction path with
  | single inside => exact ⟨[], shown.step single inside⟩
  | @tail middle name _ inside ih =>
    obtain ⟨between, shownToo⟩ := ih
    refine ⟨between ++ [middle], ?_⟩
    have next := shownToo.step single inside
    rwa [List.append_assoc] at next

end Registry.Shown

/-! ## unbounded types -/

namespace Registry

variable {registry : Registry} {type : StreamType}

/-- no read of an unbounded type is complete -/
theorem Unbounded.incomplete (unbounded : registry.Unbounded type) (single : registry.Single)
    {trace : Trace} {ctx : Context} {c d : Cursor}
    (reads : trace.Reads registry true type ctx c d) : trace.complete = false := by
  refine Bool.eq_false_iff.2 fun complete => ?_
  obtain ⟨start, mentioned, name, path, cycle⟩ := unbounded
  have first := reads.shown complete mentioned
  have there : ∃ around, registry.Shown around name := by
    rcases Relation.reflTransGen_iff_eq_or_transGen.1 path with rfl | path
    · exact ⟨_, first⟩
    · obtain ⟨between, shown⟩ := first.along single path
      exact ⟨_, shown⟩
  obtain ⟨around, shown⟩ := there
  obtain ⟨between, again⟩ := shown.along single cycle
  exact again.outside (List.mem_append_right _ List.mem_cons_self)

end Registry

/-- what makes a model has a complete entry -/
theorem Interpretation.ShowsFrom.exists_complete {interpretation : Interpretation}
    {list : List (Except Fault Bytes)} {traces : List Trace}
    (shows_ : interpretation.ShowsFrom list traces) : ∃ (trace : Trace) (c d : Cursor),
      trace.Reads interpretation.registry true interpretation.type interpretation.context c d ∧
        trace.complete = true := by
  induction shows_ with
  | last reads complete => exact ⟨_, _, _, reads, complete⟩
  | next reads incomplete others ih => exact ih

/-- **An unbounded type never has a model.**  Where there is one layout of each class and the type
comes to a class that comes to itself, a read with a generator that succeeds, wherever it begins
and whatever the generator and the context are, leaves the generator incomplete; and so no basket
gives a model for the type, with any options. -/
theorem Registry.no_model_of_unbounded {registry : Registry} {type : StreamType}
    (single : registry.Single) (unbounded : registry.Unbounded type) :
    (∀ (field : Option String) (ctx : Context) (c : Cursor) (g : Generator) (value : Value)
        (progress : Progress),
      (registry.read type field ctx).run { cursor := c, generator := some g } =
          (.ok value, progress) →
        ∃ h, progress.generator = some h ∧ h.incomplete = true) ∧
      ∀ (options : ReadOptions) (basket : Basket) (m : Model),
        ({ type, registry, options } : Interpretation).discover basket ≠ .ok (some m) := by
  refine ⟨fun field ctx c g value progress read => ?_, fun options basket m found => ?_⟩
  · obtain ⟨trace, reads, -, grown⟩ := registry.read_traced type field ctx read
    refine ⟨_, grown, ?_⟩
    rw [Trace.incomplete_contribute, unbounded.incomplete single reads, Bool.not_false,
      Bool.or_true]
  · obtain ⟨traces, ⟨list, -, shows_⟩, -, -⟩ := Interpretation.discover_shows found
    obtain ⟨trace, c, d, reads, complete⟩ := shows_.exists_complete
    rw [unbounded.incomplete single reads] at complete
    cases complete

/-! ### families -/

/-- people are named objects, and what is named has kin, who are people -/
def families : Registry where
  layouts :=
    [{ name := "Named", version := 1, members := [⟨"kin", .map .ref (.named "Person")⟩] },
      { name := "Person", version := 2, bases := ["TObject", "Named"],
        members := [⟨"age", .primitive .uint8⟩] }]
  ordered := by simp [Layout.precedes]

/-- one person of nine years, without kin -/
def loner : Bytes :=
  #[0, 0, 0, 1] ++ #[0x40, 0, 0, 35, 0, 2] ++ #[0, 1, 0, 0, 0, 0, 0, 0, 0, 0] ++
    #[0x40, 0, 0, 18, 0, 1] ++ #[0x40, 0, 0, 12, 0x40, 9, 0, 0, 0, 0, 0, 0, 0, 0, 0, 0] ++ #[9]

theorem no_model_of_unbounded_families : families.Single ∧
    families.Unbounded (.vector (.named "Person")) ∧
    (∃ value progress,
      (families.read (.vector (.named "Person")) none (.ofOptions { header := false })).run
          { cursor := { data := loner }, generator := some {} } = (.ok value, progress) ∧
        ∃ h, progress.generator = some h ∧ h.incomplete = true) ∧
    ∀ (options : ReadOptions) (basket : Basket) (m : Model),
      ({ type := .vector (.named "Person"), registry := families, options } :
        Interpretation).discover basket ≠ .ok (some m) := by
  have single : families.Single := by
    unfold Registry.Single
    decide
  have inNamed : families.Inside "Person" "Named" :=
    ⟨{ name := "Person", version := 2, bases := ["TObject", "Named"],
        members := [⟨"age", .primitive .uint8⟩] }, by decide, .base "Named", by decide, by decide⟩
  have inPerson : families.Inside "Named" "Person" :=
    ⟨{ name := "Named", version := 1, members := [⟨"kin", .map .ref (.named "Person")⟩] },
      by decide, .member ⟨"kin", .map .ref (.named "Person")⟩, by decide, by decide⟩
  have unbounded : families.Unbounded (.vector (.named "Person")) :=
    ⟨"Person", by decide, "Person", .refl, (Relation.TransGen.single inNamed).tail inPerson⟩
  obtain ⟨reads, never⟩ := Registry.no_model_of_unbounded single unbounded
  have ok : ((families.read (.vector (.named "Person")) none (.ofOptions { header := false })).run
      { cursor := { data := loner }, generator := some {} }).1.isOk = true := by decide +kernel
  refine ⟨single, unbounded, ?_, never⟩
  rcases read : (families.read (.vector (.named "Person")) none
    (.ofOptions { header := false })).run { cursor := { data := loner }, generator := some {} } with
    ⟨result, progress⟩
  rw [read] at ok
  cases result with
  | error fault => cases ok
  | ok value => exact ⟨value, progress, rfl, reads none _ _ _ value progress read⟩

end Baskets
