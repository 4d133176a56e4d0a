import Baskets.Proofs.Machine.Places
import Baskets.Proofs.Node.Outputs
import Baskets.Proofs.Plan.Form

/-!
# What decoders leave in their columns

The initial code puts a 0 in the offsets of every list, once (`Plan.means_init`).  The code of an
entry goes on from there: the data of a place come to be the values that were read there, the
offsets of a list the sums of its lengths (`Trace.Fills`).  Places are told apart by name, so what
is written at one place never shows at another.
-/

namespace Baskets

/-! ## the start of lists -/

namespace Command

/-- every list begins at 0 -/
def zeros (places : List Place) : List Command :=
  places.flatMap fun place => [.push 0, .append (place.name ++ "-offsets")]

@[simp] theorem zeros_append (places others : List Place) :
    zeros (places ++ others) = zeros places ++ zeros others :=
  List.flatMap_append

variable {info : NodeInfo} {child : Node} {children : List Node} {below : List Place}
  {commands : List Command}

theorem means_zeros (places : List Place)
    (init : info.init = Contribution.code (places.map fun place : Place => .zero place.name))
    (inner : Means (Node.inOrderAll (·.init) children) (zeros below)) :
    Means ((Node.mk info children).inOrder (·.init)) (zeros (places ++ below)) := by
  have straight : Straight (places.map fun place : Place => .zero place.name) := by
    intro instruction mem
    obtain ⟨place, -, rfl⟩ := List.mem_map.1 mem
    exact ⟨rfl, Plan.plain_single (Token.plain_name place)⟩
  have own := means_code straight
  rw [List.flatMap_map, ← init] at own
  rw [zeros_append]
  exact own.append inner

/-- a node that begins no list -/
theorem means_zeros_below (init : info.init = [])
    (inner : Means (Node.inOrderAll (·.init) children) (zeros below)) :
    Means ((Node.mk info children).inOrder (·.init)) (zeros below) :=
  means_zeros [] init inner

theorem means_init_single (one : Means (child.inOrder (·.init)) commands) :
    Means (Node.inOrderAll (·.init) [child]) commands := by
  unfold Node.inOrderAll Node.inOrderAll
  rw [String.append_empty]
  exact one

@[simp] theorem inOrder_looped (start : Instruction) (node : Node) :
    (node.looped start).inOrder (·.init) = node.inOrder (·.init) := by
  cases node with
  | mk info children => rfl

end Command

namespace Plan

open Command

variable {plan : Plan}

theorem means_init_parts {ctx : Context} {parts : List Part}
    (one : ∀ part ∈ parts, Means
      ((plan.node part.type part.field (part.context ctx)).inOrder (·.init))
      (zeros (plan.registry.listPlaces part.type (part.context ctx)))) :
    Means (Node.inOrderAll (·.init) (parts.map (plan.partNode ctx)))
      (zeros (parts.flatMap fun part => plan.registry.listPlaces part.type (part.context ctx))) := by
  induction parts with
  | nil => exact means_empty
  | cons part parts ih =>
    have first := one part List.mem_cons_self
    have wrapped : Means ((plan.partNode ctx part).inOrder (·.init))
        (zeros (plan.registry.listPlaces part.type (part.context ctx))) := by
      cases part with
      | base name => exact means_zeros_below rfl (means_init_single first)
      | member own => exact first
    rw [List.flatMap_cons, zeros_append]
    exact wrapped.append (ih fun other mem => one other (List.mem_cons_of_mem _ mem))

/-- **The initial code puts one 0 in the offsets of every list.** -/
theorem means_init (plan : Plan) (type : StreamType) (field : Option String) (ctx : Context) :
    Means ((plan.node type field ctx).inOrder (·.init))
      (zeros (plan.registry.listPlaces type ctx)) := by
  have none : Means (Node.inOrderAll (·.init) []) (zeros []) := means_empty
  have leaf {info : NodeInfo} {places : List Place}
      (init : info.init = Contribution.code (places.map fun place : Place => .zero place.name)) :
      Means ((Node.mk info []).inOrder (·.init)) (zeros places) := by
    have whole := means_zeros places init none
    rw [List.append_nil] at whole
    exact whole
  induction type, ctx using plan.registry.walk generalizing field with
  | primitive | datime | time | ref | refArray =>
    rw [node, Registry.listPlaces_simple rfl]
    exact leaf rfl
  | text kind ctx =>
    rw [Registry.listPlaces_simple rfl]
    cases kind <;> rw [node] <;> exact leaf rfl
  | object ctx =>
    rw [node, Registry.listPlaces_simple rfl]
    exact means_zeros_below rfl (means_init_single (leaf rfl))
  | vector element ctx ih =>
    rw [node, Registry.listPlaces_vector]
    cases kind : element.primitive? with
    | some p =>
      obtain rfl := StreamType.eq_primitive kind
      rw [Registry.listPlaces_simple rfl]
      exact leaf rfl
    | none =>
      refine means_zeros [(ctx.path, "")] ?_ (means_init_single (ih _))
      unfold Contribution.vector
      rw [kind]
      rfl
  | array element count ctx ih =>
    rw [node, Registry.listPlaces_array]
    cases kind : element.primitive? with
    | some p =>
      obtain rfl := StreamType.eq_primitive kind
      rw [Registry.listPlaces_simple rfl]
      exact leaf rfl
    | none =>
      refine means_zeros_below ?_ (means_init_single (ih _))
      unfold Contribution.array
      rw [kind]
  | map key value ctx keys values =>
    rw [node, Registry.listPlaces_map]
    have keysInit := keys Option.none
    have valuesInit := values Option.none
    rw [← inOrder_looped .loopKeeping] at keysInit
    rw [← inOrder_looped .loopTaking] at valuesInit
    have both := keysInit.append (means_init_single valuesInit)
    rw [← zeros_append] at both
    exact means_zeros [(ctx.path, "")] rfl both
  | named name ctx ih =>
    rw [node_named, Registry.listPlaces_named]
    have parts := means_init_parts (fun part mem => ih part mem part.field)
    exact means_zeros_below rfl (means_init_single
      (means_zeros_below rfl (means_init_single (means_zeros_below rfl parts))))

end Plan

/-! ## what is in columns -/

namespace Command

/-- columns with a 0 behind the offsets of each place -/
def opened : List Place → Columns → Columns
  | [], columns => columns
  | place :: places, columns => opened places (columns.append (place.name ++ "-offsets") (.int 0))

theorem execAll_zeros (places : List Place) (m : Machine) :
    execAll (zeros places) m = some { m with columns := opened places m.columns } := by
  induction places generalizing m with
  | nil => rfl
  | cons place places ih => exact ih { m with columns := m.columns.append _ (.int 0) }

end Command

namespace Place

variable {places : List Place} {p q : Place}

theorem Apart.eq_of_ending {ending : String} (apart : Apart places) (here : p ∈ places)
    (there : q ∈ places) (same : p.name ++ ending = q.name ++ ending) : p = q :=
  apart p here q there (placeKey_eq_of_name_eq (Output.eq_of_ending same))

end Place

namespace Columns

@[simp] theorem append_self (column : String) (value : Value) (columns : Columns) :
    columns.append column value column = columns column ++ [value] := if_pos rfl

theorem append_of_ne {column name : String} (other : name ≠ column) (value : Value)
    (columns : Columns) : columns.append column value name = columns name := if_neg other

end Columns

namespace Command

open Columns

variable {places : List Place} {place : Place} {name : String}

theorem opened_of_ne (other : ∀ place ∈ places, name ≠ place.name ++ "-offsets")
    (columns : Columns) : opened places columns name = columns name := by
  induction places generalizing columns with
  | nil => rfl
  | cons place places ih =>
    unfold opened
    rw [ih fun next mem => other next (List.mem_cons_of_mem place mem)]
    exact append_of_ne (other place List.mem_cons_self) _ columns

theorem opened_of_mem (once : places.Nodup) (apart : Place.Apart places) (mem : place ∈ places)
    (columns : Columns) : opened places columns (place.name ++ "-offsets") =
      columns (place.name ++ "-offsets") ++ [.int 0] := by
  induction places generalizing columns with
  | nil => cases mem
  | cons first places ih =>
    obtain ⟨outside, once⟩ := List.nodup_cons.1 once
    have different {other : Place} (there : other ∈ places) :
        other.name ++ "-offsets" ≠ first.name ++ "-offsets" := fun same => outside <|
      apart.eq_of_ending (List.mem_cons_of_mem _ there) List.mem_cons_self same ▸ there
    unfold opened
    rcases List.mem_cons.1 mem with rfl | mem
    · simp [opened_of_ne fun other there same => different there same.symm]
    · rw [ih once (apart.mono (List.subset_cons_self _ _)) mem, append_of_ne (different mem)]

end Command

namespace Write

open Columns

/-- the value, if it goes to the place -/
def value? (place : Place) : Write → Option Value
  | .value other v => if other = place then some v else none
  | .count .. => none

/-- the length, if it goes to the place -/
def count? (place : Place) : Write → Option Nat
  | .value .. => none
  | .count other n => if other = place then some n else none

def column : Write → String
  | .value place _ => place.name ++ "-data"
  | .count place _ => place.name ++ "-offsets"

variable {writes : List Write} {places lists : List Place} {place : Place} {name : String}
  {columns : Columns}

theorem write_of_ne {write : Write} (other : name ≠ write.column) :
    write.write columns name = columns name := by
  cases write with
  | value place v => exact append_of_ne other _ columns
  | count place n => exact append_of_ne other _ columns

theorem all_of_ne (other : ∀ write ∈ writes, name ≠ write.column) :
    all writes columns name = columns name := by
  induction writes generalizing columns with
  | nil => rfl
  | cons first rest ih =>
    have here : first.write columns name = columns name :=
      write_of_ne (other first List.mem_cons_self)
    exact (ih fun write mem => other write (List.mem_cons_of_mem first mem)).trans here

variable {registry : Registry} {type : StreamType} {ctx : Context}

/-- what comes to the data of a place -/
theorem all_data (apart : Place.Apart (registry.places type ctx))
    (here : place ∈ registry.places type ctx)
    (within : ∀ write ∈ writes, write.Within registry type ctx) :
    all writes columns (place.name ++ "-data") =
      columns (place.name ++ "-data") ++ writes.filterMap (value? place) := by
  induction writes generalizing columns with
  | nil => exact (List.append_nil _).symm
  | cons first rest ih =>
    have later := @ih (first.write columns) fun write mem =>
      within write (List.mem_cons_of_mem first mem)
    show all rest (first.write columns) _ = _
    rw [later]
    cases first with
    | count other n =>
      rw [write_of_ne (Output.data_ne_offsets place.name other.name)]
      rfl
    | value other v =>
      by_cases same : other = place
      · subst same
        have found : value? other (.value other v) = some v := if_pos rfl
        rw [List.filterMap_cons_some found]
        show columns.append _ v _ ++ _ = _
        simp
      · have none : value? place (.value other v) = Option.none := if_neg same
        rw [List.filterMap_cons_none none, write_of_ne]
        have there : other ∈ registry.places type ctx := within _ List.mem_cons_self
        exact fun names => same (apart.eq_of_ending there here names.symm)

/-- what comes to the offsets of a list -/
theorem all_offsets (apart : Place.Apart (registry.places type ctx))
    (here : place ∈ registry.listPlaces type ctx)
    (within : ∀ write ∈ writes, write.Within registry type ctx) (front : List Value) (total : Nat)
    (now : columns (place.name ++ "-offsets") = front ++ [.int total]) :
    all writes columns (place.name ++ "-offsets") =
      front ++ ((writes.filterMap (count? place)).scanl (· + ·) total).map fun n => .int n := by
  induction writes generalizing columns front total with
  | nil => exact now
  | cons first rest ih =>
    have others := fun write mem => within write (List.mem_cons_of_mem first mem)
    show all rest (first.write columns) _ = _
    cases first with
    | value other v =>
      refine ih others front total ?_
      rw [write_of_ne (Output.data_ne_offsets other.name place.name).symm, now]
    | count other n =>
      by_cases same : other = place
      · subst same
        have found : count? other (.count other n) = some n := if_pos rfl
        have sum : Columns.total (columns (other.name ++ "-offsets")) = (total : Int) := by
          rw [now]
          unfold Columns.total
          rw [List.getLast?_concat]
        have next : (Write.count other n).write columns (other.name ++ "-offsets") =
            (front ++ [.int total]) ++ [.int ((total + n : Nat) : Int)] := by
          show columns.append _ (.int (Columns.total _ + n)) _ = _
          rw [append_self, sum, now]
          rfl
        rw [List.filterMap_cons_some found, ih others _ _ next, List.scanl_cons, List.append_assoc]
        rfl
      · have none : count? place (.count other n) = Option.none := if_neg same
        rw [List.filterMap_cons_none none]
        refine ih others front total ?_
        rw [write_of_ne, now]
        have there : other ∈ registry.listPlaces type ctx := within _ List.mem_cons_self
        have lists := (registry.listPlaces_sublist type ctx).subset
        exact fun names => same (apart.eq_of_ending (lists there) (lists here) names.symm)

end Write

namespace Trace

/-- the values that were read at a place, in the order of reading; those of texts are bytes -/
def valuesAt (trace : Trace) (ctx : Context) (place : Place) : List Value :=
  (trace.writes ctx).filterMap (Write.value? place)

/-- the lengths of the lists that were read at a place -/
def lengthsAt (trace : Trace) (ctx : Context) (place : Place) : List Nat :=
  (trace.writes ctx).filterMap (Write.count? place)

/-- the columns have what was read, and nothing else -/
structure Fills (trace : Trace) (registry : Registry) (type : StreamType) (ctx : Context)
    (columns : Columns) : Prop where
  data : ∀ place ∈ registry.places type ctx,
    columns (place.name ++ "-data") = trace.valuesAt ctx place
  offsets : ∀ place ∈ registry.listPlaces type ctx, columns (place.name ++ "-offsets") =
    ((trace.lengthsAt ctx place).scanl (· + ·) 0).map fun n : Nat => .int n
  others : ∀ name, (∀ place ∈ registry.places type ctx, name ≠ place.name ++ "-data") →
    (∀ place ∈ registry.listPlaces type ctx, name ≠ place.name ++ "-offsets") → columns name = []

theorem fills_all {registry : Registry} {type : StreamType} {ctx : Context} {trace : Trace}
    {c d : Cursor} (regular : registry.Regular) (apart : Place.Apart (registry.places type ctx))
    (reads : trace.Reads registry true type ctx c d) :
    trace.Fills registry type ctx (Write.all (trace.writes ctx)
      (Command.opened (registry.listPlaces type ctx) fun _ => [])) := by
  have within := writes_within regular type ctx reads
  have lists := registry.listPlaces_sublist type ctx
  refine ⟨fun place here => ?_, fun place here => ?_, fun name noData noOffsets => ?_⟩
  · rw [Write.all_data apart here within,
      Command.opened_of_ne fun other _ => Output.data_ne_offsets place.name other.name]
    rfl
  · have start := Command.opened_of_mem ((regular.places_nodup type ctx).sublist lists)
      (apart.mono lists.subset) here fun _ => []
    exact Write.all_offsets apart here within [] 0 start
  · rw [Write.all_of_ne fun write mem => ?_, Command.opened_of_ne noOffsets]
    have there := within write mem
    cases write with
    | value place v => exact noData place there
    | count place n => exact noOffsets place there

end Trace

end Baskets
