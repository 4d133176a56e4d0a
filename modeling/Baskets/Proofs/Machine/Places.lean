import Baskets.Proofs.Machine.Decoding
import Baskets.Proofs.Plan.Headers

/-!
# Where values, lengths and headers belong

All that a read of a type takes has a place in the type: the values that go to columns
(`Trace.writes_within`) and the headers that are passed over (`Trace.marks_within`).  The places of
lists are among the places of the type.
-/

namespace Baskets

/-! ## lists -/

/-- the roles of the lists that a type has at its own path -/
def StreamType.listRoles : StreamType → List String
  | .text _ | .vector _ | .map .. => [""]
  | .refArray => ["fName", "refs"]
  | _ => []

def StreamType.listPlaces (type : StreamType) (ctx : Context) : List Place :=
  type.listRoles.map fun role => (ctx.path, role)

namespace Registry

variable {registry : Registry}

/-- the places of lists, those with offsets -/
def listPlaces (registry : Registry) : StreamType → Context → List Place :=
  registry.gather StreamType.listPlaces fun _ => []

theorem listPlaces_simple {type : StreamType} (simple : type.isSimple = true) (ctx : Context) :
    registry.listPlaces type ctx = type.listPlaces ctx := registry.gather_simple _ _ simple ctx

@[simp] theorem listPlaces_named (name : String) (ctx : Context) :
    registry.listPlaces (.named name) ctx = (registry.partsIn ctx.breadcrumbs name).flatMap
      fun part => registry.listPlaces part.type (part.context (ctx.inClass name)) :=
  registry.gather_named _ _ name ctx

@[simp] theorem listPlaces_vector (element : StreamType) (ctx : Context) :
    registry.listPlaces (.vector element) ctx =
      (ctx.path, "") :: registry.listPlaces element ctx.items :=
  registry.gather_vector _ _ element ctx

@[simp] theorem listPlaces_array (element : StreamType) (count : UInt64) (ctx : Context) :
    registry.listPlaces (.array element count) ctx = registry.listPlaces element ctx.elements :=
  registry.gather_array _ _ element count ctx

@[simp] theorem listPlaces_map (key value : StreamType) (ctx : Context) :
    registry.listPlaces (.map key value) ctx = (ctx.path, "") ::
      (registry.listPlaces key ctx.mapKeys ++ registry.listPlaces value ctx.mapValues) :=
  registry.gather_map _ _ key value ctx

theorem listRoles_sublist (type : StreamType) : type.listRoles.Sublist type.roles := by
  cases type <;> simp [StreamType.listRoles, StreamType.roles]

theorem listPlaces_sublist (registry : Registry) (type : StreamType) (ctx : Context) :
    (registry.listPlaces type ctx).Sublist (registry.places type ctx) := by
  induction type, ctx using registry.walk with
  | vector element ctx ih =>
    rw [listPlaces_vector, places_vector]
    exact ih.cons_cons _
  | array element count ctx ih =>
    simpa using ih.cons _
  | map key value ctx keys values =>
    rw [listPlaces_map, places_map]
    exact (keys.append values).cons_cons _
  | named name ctx ih =>
    rw [listPlaces_named, places_named]
    refine .trans ?_ (List.sublist_append_right _ _)
    generalize registry.partsIn ctx.breadcrumbs name = parts at ih
    induction parts with
    | nil => exact .slnil
    | cons part parts more =>
      rw [List.flatMap_cons, List.flatMap_cons]
      have first := (ih part List.mem_cons_self).cons
        ((part.context (ctx.inClass name)).path, "base")
      exact first.append (more fun other mem => ih other (List.mem_cons_of_mem _ mem))
  | _ =>
    rw [listPlaces_simple rfl, registry.places_simple rfl]
    exact (listRoles_sublist _).map _

end Registry

/-! ## the places of what was read -/

/-- the write goes to a place of the type -/
def Write.Within (registry : Registry) (type : StreamType) (ctx : Context) : Write → Prop
  | .value place _ => place ∈ registry.places type ctx
  | .count place _ => place ∈ registry.listPlaces type ctx

/-- the node of the header has its name from a place of the type, at the path of the header -/
def Mark.Within (registry : Registry) (type : StreamType) (ctx : Context) (mark : Mark) : Prop :=
  ∃ role, (mark.path, role) ∈ registry.places type ctx ∧ mark.node.NamedAfter (mark.path, role)

namespace Trace

theorem writesAll_eq (ctx : Context) (items : List Trace) :
    writesAll ctx items = items.flatMap fun item => item.writes ctx := by
  induction items with
  | nil => rfl
  | cons item rest ih => exact congrArg (item.writes ctx ++ ·) ih

theorem writesParts_eq (ctx : Context) (parts : List Part) (items : List Trace) :
    writesParts ctx parts items =
      (parts.zip items).flatMap fun own => own.2.writes (own.1.context ctx) := by
  induction parts generalizing items with
  | nil => cases items <;> rfl
  | cons part parts ih =>
    cases items with
    | nil => rfl
    | cons item rest => exact congrArg (item.writes (part.context ctx) ++ ·) (ih rest)

end Trace

namespace Write

variable {registry : Registry} {type element : StreamType} {ctx inner : Context} {role : String}

theorem within_value (own : role ∈ type.roles) (v : Value) :
    (Write.value (ctx.path, role) v).Within registry type ctx :=
  registry.own_mem_gather _ (List.mem_map_of_mem own)

theorem within_count (own : role ∈ type.listRoles) (n : Nat) :
    (Write.count (ctx.path, role) n).Within registry type ctx :=
  registry.own_mem_gather _ (List.mem_map_of_mem own)

/-- a list of values, with its length in front -/
theorem within_list {α : Type} {start : String} (lists : start ∈ type.listRoles)
    (own : role ∈ type.roles) (n : Nat) (items : List α) (f : α → Value) :
    ∀ write ∈ Write.count (ctx.path, start) n ::
        items.map (fun item => .value (ctx.path, role) (f item)), write.Within registry type ctx :=
  List.forall_mem_cons.2 ⟨within_count lists n, List.forall_mem_map.2 fun _ _ => within_value own _⟩

theorem Within.of_subset {write : Write} (within : write.Within registry element inner)
    (all : ∀ (own : StreamType → Context → List Place) around,
      registry.gather own around element inner ⊆ registry.gather own around type ctx) :
    write.Within registry type ctx := by
  cases write with
  | value place value => exact all _ _ within
  | count place count => exact all _ _ within

end Write

namespace Trace

variable {registry : Registry} {type : StreamType} {ctx : Context} {trace : Trace} {c d : Cursor}

/-- what is read of a type without further types in it goes to places of its own -/
theorem writes_within_simple (simple : type.isSimple = true)
    (reads : trace.Reads registry true type ctx c d) :
    ∀ write ∈ trace.writes ctx, write.Within registry type ctx := by
  have one {type : StreamType} {role : String} (own : role ∈ type.roles) (v : Value) :
      ∀ write ∈ [Write.value (ctx.path, role) v], write.Within registry type ctx :=
    List.forall_mem_singleton.2 (Write.within_value own v)
  cases reads with
  | number => exact one List.mem_cons_self _
  | tstring | stdString =>
    exact Write.within_list List.mem_cons_self (List.mem_cons_of_mem _ List.mem_cons_self) _ _ _
  | head => exact List.forall_mem_nil _
  | datime | time | ref => exact one (by decide) _
  | refArray =>
    refine List.forall_mem_append.2 ⟨Write.within_list (by decide) (by decide) _ _ _,
      List.forall_mem_cons.2 ⟨Write.within_value (by decide) _, ?_⟩⟩
    exact Write.within_list (by decide) (by decide) _ _ _
  | vector | array | map | object => cases simple

/-- the values and lengths of a trace are written at places of the type -/
theorem writes_within (regular : registry.Regular) (type : StreamType) (ctx : Context)
    {trace : Trace} {c d : Cursor} (reads : trace.Reads registry true type ctx c d) :
    ∀ write ∈ trace.writes ctx, write.Within registry type ctx := by
  induction type, ctx using registry.walk generalizing trace c d with
  | vector element ctx ih =>
    cases reads with
    | vector before number all =>
      intro write mem
      rcases List.mem_cons.1 mem with rfl | mem
      · exact Write.within_count List.mem_cons_self _
      · rw [writesAll_eq] at mem
        obtain ⟨item, d, e, reads, mem⟩ := all.exists_of_mem_flatMap mem
        refine (ih reads write mem).of_subset fun own around => ?_
        rw [registry.gather_vector]
        exact List.subset_append_right _ _
  | array element length ctx ih =>
    cases reads with
    | array same all =>
      intro write mem
      have mem : write ∈ writesAll ctx.elements _ := mem
      rw [writesAll_eq] at mem
      obtain ⟨item, d, e, reads, mem⟩ := all.exists_of_mem_flatMap mem
      refine (ih reads write mem).of_subset fun own around => ?_
      rw [registry.gather_array]
      exact List.subset_append_right _ _
  | map key value ctx keys values =>
    cases reads with
    | map before number same allKeys allValues =>
      intro write mem
      rcases List.mem_cons.1 mem with rfl | mem
      · exact Write.within_count List.mem_cons_self _
      · rcases List.mem_append.1 mem with mem | mem
        · rw [writesAll_eq] at mem
          obtain ⟨item, d, e, reads, mem⟩ := allKeys.exists_of_mem_flatMap mem
          refine (keys reads write mem).of_subset fun own around => ?_
          rw [registry.gather_map]
          exact fun place mem => List.mem_append_right _ (List.mem_append_left _ mem)
        · rw [writesAll_eq] at mem
          obtain ⟨item, d, e, reads, mem⟩ := allValues.exists_of_mem_flatMap mem
          refine (values reads write mem).of_subset fun own around => ?_
          rw [registry.gather_map]
          exact fun place mem => List.mem_append_right _ (List.mem_append_right _ mem)
  | named name ctx ih =>
    cases reads with
    | @object _ _ _ _ _ header latest layout parts outside known takes chosen all =>
      obtain rfl : layout = latest := chosen.trans (regular.chosen known header.version)
      intro write mem
      have mem : write ∈ writesParts (ctx.inClass name) layout.parts parts := mem
      rw [writesParts_eq] at mem
      obtain ⟨part, there, item, d, e, reads, mem⟩ := all.exists_of_mem_flatMap mem
      rw [← registry.partsIn_eq (outside rfl) known] at there
      refine (ih part there reads write mem).of_subset fun own around place mem => ?_
      rw [registry.gather_named]
      exact List.mem_append_right _ (List.mem_flatMap.2 ⟨part, there, List.mem_append_right _ mem⟩)
  | _ => exact writes_within_simple rfl reads

/-- the headers of a trace stand at places of the type -/
theorem marks_within (regular : registry.Regular) (reads : trace.Reads registry true type ctx c d) :
    ∀ mark ∈ trace.marks ctx, mark.Within registry type ctx :=
  fun mark mem => Registry.headers_within type ctx _ (marks_headers regular type ctx reads mark mem)

end Trace

end Baskets
