import Mathlib.Data.List.Nodup
import Baskets.Form.Json

/-!
# Forms that were written are read back

A form is written as JSON with all of its members, and the order of the members of an object does
not matter to a reader: `Form.WrittenAs` has all of these orders.  Two of them are the order of
writing and the sorted one, in which a map holds the members.  Whatever the order, the form that is
read is the form that was written, nested forms, unknown contents and parameters included
(`Form.ofJson_toJson`), and so no two forms are written alike.
-/

namespace Baskets

/-! ## objects -/

namespace Json

theorem lookup_of_mem {members : List (String × Json)} {name : String} {value : Json}
    (once : (members.map Prod.fst).Nodup) (mem : (name, value) ∈ members) :
    members.lookup name = some value := by
  induction members with
  | nil => cases mem
  | cons member rest ih =>
    obtain ⟨other, old⟩ := member
    obtain ⟨new, once⟩ := List.nodup_cons.1 once
    rcases List.mem_cons.1 mem with same | mem
    · cases same
      exact List.lookup_cons_self
    · have there : name ∈ rest.map Prod.fst := List.mem_map.2 ⟨(name, value), mem, rfl⟩
      have differs : name ≠ other := fun same => new (same ▸ there)
      rw [List.lookup_cons, beq_false_of_ne differs]
      exact ih once mem

mutual

/-- the members of every object are in ascending order of their names, as a map holds them -/
def Ordered : Json → Prop
  | .list items => OrderedItems items
  | .object members => OrderedMembers members
  | _ => True

def OrderedItems : List Json → Prop
  | [] => True
  | item :: items => item.Ordered ∧ OrderedItems items

def OrderedMembers : List (String × Json) → Prop
  | [] => True
  | (name, value) :: rest =>
    (∀ other ∈ rest, name < other.1) ∧ value.Ordered ∧ OrderedMembers rest

end

theorem insert_of_behind {name : String} {sorted : List (String × Json)}
    (behind : ∀ member ∈ sorted, member.1 < name) (value : Json) :
    insert name value sorted = sorted ++ [(name, value)] := by
  induction sorted with
  | nil => rfl
  | cons member rest ih =>
    obtain ⟨other, old⟩ := member
    have before : other < name := behind (other, old) List.mem_cons_self
    unfold insert
    rw [if_neg (String.lt_asymm before), if_neg (String.ne_of_lt before).symm,
      ih fun member mem => behind member (List.mem_cons_of_mem _ mem)]
    rfl

mutual

/-- what is in order stays as it is -/
theorem canonical_of_ordered : (json : Json) → json.Ordered → json.canonical = json
  | .list items, ordered => congrArg Json.list (canonicalItems_of_ordered items ordered)
  | .object members, ordered => by
    have same := canonicalMembers_of_ordered [] members (fun _ mem => absurd mem List.not_mem_nil)
      ordered
    exact congrArg Json.object same
  | .null, _ | .bool _, _ | .whole _, _ | .double _, _ | .text _, _ => rfl

theorem canonicalItems_of_ordered : (items : List Json) → OrderedItems items →
    canonicalItems items = items
  | [], _ => rfl
  | item :: items, ⟨first, rest⟩ =>
    congrArg₂ List.cons (canonical_of_ordered item first) (canonicalItems_of_ordered items rest)

theorem canonicalMembers_of_ordered (sorted : List (String × Json)) :
    (members : List (String × Json)) →
      (∀ member ∈ sorted, ∀ other ∈ members, member.1 < other.1) → OrderedMembers members →
        canonicalMembers sorted members = sorted ++ members
  | [], _, _ => (List.append_nil sorted).symm
  | (name, value) :: rest, behind, ⟨first, own, ordered⟩ => by
    have put := insert_of_behind (fun member mem => behind member mem _ List.mem_cons_self) value
    have further : ∀ member ∈ sorted ++ [(name, value)], ∀ other ∈ rest, member.1 < other.1 := by
      intro member mem other there
      rcases List.mem_append.1 mem with mem | mem
      · exact behind member mem other (List.mem_cons_of_mem _ there)
      · rw [List.mem_singleton.1 mem]
        exact first other there
    show canonicalMembers (insert name value.canonical sorted) rest = _
    rw [canonical_of_ordered value own, put,
      canonicalMembers_of_ordered (sorted ++ [(name, value)]) rest further ordered,
      List.append_assoc]
    rfl

end

/-- a member of a new name is put somewhere among the others -/
theorem insert_perm {name : String} {members : List (String × Json)}
    (new : name ∉ members.map Prod.fst) (value : Json) :
    (insert name value members).Perm ((name, value) :: members) := by
  induction members with
  | nil => exact .refl _
  | cons member rest ih =>
    obtain ⟨other, old⟩ := member
    have differs : name ≠ other := fun same => new (same ▸ List.mem_cons_self)
    have behind := ih fun mem => new (List.mem_cons_of_mem _ mem)
    unfold insert
    rw [if_neg differs]
    split
    · exact .refl _
    · exact (behind.cons _).trans (.swap _ _ _)

/-- sorting changes only the order of members of different names -/
theorem canonicalMembers_perm (sorted members : List (String × Json))
    (once : ((sorted ++ members).map Prod.fst).Nodup) :
    (canonicalMembers sorted members).Perm
      (sorted ++ members.map fun member => (member.1, member.2.canonical)) := by
  induction members generalizing sorted with
  | nil => exact .of_eq (List.append_nil sorted).symm
  | cons member rest ih =>
    obtain ⟨name, value⟩ := member
    have once' : (name :: (sorted ++ rest).map Prod.fst).Nodup := by
      have front : (sorted ++ (name, value) :: rest).Perm ((name, value) :: (sorted ++ rest)) :=
        List.perm_middle
      exact (front.map Prod.fst).nodup_iff.1 once
    obtain ⟨new, others⟩ := List.nodup_cons.1 once'
    have put : (insert name value.canonical sorted).Perm ((name, value.canonical) :: sorted) :=
      insert_perm (fun mem => new (by
        rw [List.map_append]
        exact List.mem_append_left _ mem)) _
    have all : ((insert name value.canonical sorted ++ rest).map Prod.fst).Nodup :=
      ((put.append_right rest).map Prod.fst).nodup_iff.2 once'
    refine (ih _ all).trans ((put.append_right _).trans ?_)
    exact List.perm_middle.symm

end Json

/-! ## what is written -/

/-- the parameters are as a map holds them -/
def Tags.Ordered (tags : Tags) : Prop := Json.OrderedMembers tags.parameters

namespace Form

mutual

/-- sizes have 64 bits, and parameters are as a map holds them -/
def WellFormed : Form → Prop
  | .leaf _ shape tags => (∀ n ∈ shape, n < UInt64.size) ∧ tags.Ordered
  | .list _ content tags => WellFormedContent content ∧ tags.Ordered
  | .regular size content tags => size < UInt64.size ∧ WellFormedContent content ∧ tags.Ordered
  | .record _ contents tags => WellFormedAll contents ∧ tags.Ordered

def WellFormedContent : Option Form → Prop
  | none => True
  | some form => form.WellFormed

def WellFormedAll : List Form → Prop
  | [] => True
  | form :: forms => form.WellFormed ∧ WellFormedAll forms

end

/-- an object of that class with these members, in any order -/
def IsObject (kind : String) (written : List (String × Json)) (json : Json) : Prop :=
  ∃ members, json = .object members ∧ members.Perm (("class", .text kind) :: written)

mutual

/-- the JSON of a form, with the members of every object in any order -/
def WrittenAs : Form → Json → Prop
  | .leaf primitive shape tags, json => IsObject "NumpyArray"
    ([("primitive", .text primitive.name),
      ("inner_shape", .list (shape.map fun (n : Nat) => .whole n))] ++ tagMembers tags) json
  | .list offsets content tags, json => ∃ inner, ContentWrittenAs content inner ∧
    IsObject "ListOffsetArray"
      ([("offsets", .text offsets.name), ("content", inner)] ++ tagMembers tags) json
  | .regular size content tags, json => ∃ inner, ContentWrittenAs content inner ∧
    IsObject "RegularArray"
      ([("size", .whole size), ("content", inner)] ++ tagMembers tags) json
  | .record fields contents tags, json => ∃ items, AllWrittenAs contents items ∧
    IsObject "RecordArray"
      ([("fields", fieldsJson fields), ("contents", .list items)] ++ tagMembers tags) json

def ContentWrittenAs : Option Form → Json → Prop
  | none, json => json = .text "NULL"
  | some form, json => form.WrittenAs json

def AllWrittenAs : List Form → List Json → Prop
  | [], items => items = []
  | form :: forms, items => ∃ item rest, items = item :: rest ∧ form.WrittenAs item ∧
    AllWrittenAs forms rest

end

mutual

theorem writtenAs_toJson : (form : Form) → form.WrittenAs form.toJson
  | .leaf .. => ⟨_, rfl, .refl _⟩
  | .list _ content _ | .regular _ content _ =>
    ⟨_, contentWrittenAs_toJson content, _, rfl, .refl _⟩
  | .record _ contents _ => ⟨_, allWrittenAs_toJson contents, _, rfl, .refl _⟩

theorem contentWrittenAs_toJson : (content : Option Form) →
    ContentWrittenAs content (contentToJson content)
  | none => rfl
  | some form => writtenAs_toJson form

theorem allWrittenAs_toJson : (forms : List Form) → AllWrittenAs forms (contentsToJson forms)
  | [] => rfl
  | form :: forms => ⟨_, _, rfl, writtenAs_toJson form, allWrittenAs_toJson forms⟩

end

/-! ### sorted members -/

/-- the members of a class have different names -/
theorem names_nodup {kind : String} (known : kind ∈ classNames) :
    ("class" :: (memberNames kind).1).Nodup := by
  revert kind
  decide

theorem IsObject.canonical {kind : String} {written : List (String × Json)} {json : Json}
    (known : kind ∈ classNames) (names : written.map Prod.fst = (memberNames kind).1)
    (object : IsObject kind written json) :
    IsObject kind (written.map fun member => (member.1, member.2.canonical)) json.canonical := by
  obtain ⟨members, rfl, perm⟩ := object
  have once : (members.map Prod.fst).Nodup := by
    refine (perm.map Prod.fst).nodup_iff.2 ?_
    show ("class" :: written.map Prod.fst).Nodup
    rw [names]
    exact names_nodup known
  exact ⟨_, rfl, (Json.canonicalMembers_perm [] members once).trans (perm.map _)⟩

theorem canonical_tagMembers {tags : Tags} (ordered : tags.Ordered) :
    (tagMembers tags).map (fun member => (member.1, member.2.canonical)) = tagMembers tags := by
  have parameters : (Json.object tags.parameters).canonical = .object tags.parameters :=
    Json.canonical_of_ordered _ ordered
  have key : (keyJson tags).canonical = keyJson tags := by
    unfold keyJson
    split <;> rfl
  show [("parameters", (Json.object tags.parameters).canonical),
    ("form_key", (keyJson tags).canonical)] = _
  rw [parameters, key]
  rfl

theorem canonicalItems_eq {items : List Json} (same : ∀ item ∈ items, item.canonical = item) :
    Json.canonicalItems items = items := by
  induction items with
  | nil => rfl
  | cons item items ih =>
    have rest := ih fun other mem => same other (List.mem_cons_of_mem _ mem)
    exact congrArg₂ List.cons (same item List.mem_cons_self) rest

@[simp] theorem canonical_fieldsJson (fields : Option (List String)) :
    (fieldsJson fields).canonical = fieldsJson fields := by
  cases fields with
  | none => rfl
  | some names =>
    refine congrArg Json.list (canonicalItems_eq fun item mem => ?_)
    obtain ⟨name, -, rfl⟩ := List.mem_map.1 mem
    rfl

mutual

/-- what a form was written as may be sorted -/
theorem WrittenAs.canonical : (form : Form) → form.WellFormed → (json : Json) →
    form.WrittenAs json → form.WrittenAs json.canonical
  | .leaf primitive shape tags, wellFormed, json, written => by
    have sorted := IsObject.canonical (by decide) rfl written
    have wholes : Json.canonicalItems (shape.map fun (n : Nat) => .whole n) =
        shape.map fun (n : Nat) => .whole n := by
      refine canonicalItems_eq fun item mem => ?_
      obtain ⟨n, -, rfl⟩ := List.mem_map.1 mem
      rfl
    rw [List.map_append, canonical_tagMembers wellFormed.2] at sorted
    show IsObject _ ([_, ("inner_shape", .list _)] ++ _) _
    rw [← wholes]
    exact sorted
  | .list offsets content tags, wellFormed, json, ⟨inner, below, written⟩ => by
    have sorted := IsObject.canonical (by decide) rfl written
    rw [List.map_append, canonical_tagMembers wellFormed.2] at sorted
    exact ⟨_, ContentWrittenAs.canonical content wellFormed.1 inner below, sorted⟩
  | .regular size content tags, wellFormed, json, ⟨inner, below, written⟩ => by
    have sorted := IsObject.canonical (by decide) rfl written
    rw [List.map_append, canonical_tagMembers wellFormed.2.2] at sorted
    exact ⟨_, ContentWrittenAs.canonical content wellFormed.2.1 inner below, sorted⟩
  | .record fields contents tags, wellFormed, json, ⟨items, below, written⟩ => by
    have sorted := IsObject.canonical (by decide) rfl written
    rw [List.map_append, canonical_tagMembers wellFormed.2] at sorted
    refine ⟨_, AllWrittenAs.canonical contents wellFormed.1 items below, ?_⟩
    rw [← canonical_fieldsJson]
    exact sorted

theorem ContentWrittenAs.canonical : (content : Option Form) → WellFormedContent content →
    (json : Json) → ContentWrittenAs content json → ContentWrittenAs content json.canonical
  | none, _, _, written => by
    cases written
    rfl
  | some form, wellFormed, json, written => WrittenAs.canonical form wellFormed json written

theorem AllWrittenAs.canonical : (forms : List Form) → WellFormedAll forms →
    (items : List Json) → AllWrittenAs forms items →
      AllWrittenAs forms (Json.canonicalItems items)
  | [], _, _, written => by
    cases written
    rfl
  | form :: forms, wellFormed, _, ⟨item, rest, same, first, others⟩ => by
    subst same
    exact ⟨_, _, rfl, WrittenAs.canonical form wellFormed.1 item first,
      AllWrittenAs.canonical forms wellFormed.2 rest others⟩

end

/-! ## reading -/

/-- the class and the members of an object, wherever the class stands -/
theorem split?_of_isObject {kind : String} {written : List (String × Json)} {json : Json}
    (known : kind ∈ classNames) (names : written.map Prod.fst = (memberNames kind).1)
    (object : IsObject kind written json) (nested : Bool) :
    ∃ members, split? nested json = some (kind, members) ∧
      ∀ name value, (name, value) ∈ written → members.lookup name = some value := by
  obtain ⟨members, rfl, perm⟩ := object
  have once : (members.map Prod.fst).Nodup := by
    refine (perm.map Prod.fst).nodup_iff.2 ?_
    show ("class" :: written.map Prod.fst).Nodup
    rw [names]
    exact names_nodup known
  have distinct : members.Pairwise fun a b => a.1 ≠ b.1 := List.pairwise_map.1 once
  have kindOf : members.lookup "class" = some (.text kind) :=
    Json.lookup_of_mem once (perm.mem_iff.2 List.mem_cons_self)
  have only : Json.countOf "class" members = 1 := by
    have count : Json.countOf "class" members = (members.map Prod.fst).count "class" := by
      unfold Json.countOf List.count
      rw [List.countP_map]
      rfl
    rw [count]
    exact List.count_eq_one_of_mem once
      (List.mem_map.2 ⟨_, perm.mem_iff.2 List.mem_cons_self, rfl⟩)
  refine ⟨members.filter fun member => member.1 ∈ (memberNames kind).1, ?_, ?_⟩
  · unfold split?
    have class_ : classOf? nested (.text kind) = some kind := if_pos known
    dsimp only
    rw [kindOf]
    show (classOf? nested (.text kind)).bind _ = _
    rw [class_]
    exact if_pos ⟨only, distinct.filter _⟩
  · intro name value mem
    have listed : name ∈ (memberNames kind).1 := names ▸ List.mem_map.2 ⟨_, mem, rfl⟩
    refine Json.lookup_of_mem ?_ (List.mem_filter.2 ⟨?_, decide_eq_true listed⟩)
    · exact List.pairwise_map.2 (distinct.filter _)
    · exact perm.mem_iff.2 (List.mem_cons_of_mem _ mem)

/-- what a reader does when it knows the class and the members -/
theorem read?_of_split {nested : Bool} {json : Json} {kind : String}
    {members : List (String × Json)} (known : split? nested json = some (kind, members)) :
    read? nested json = (tagsOf? fun name => members.lookup name).bind fun tags =>
      if kind = "NumpyArray" then do
        let primitive ← primitiveOf? (← members.lookup "primitive")
        let shape ← optional [] shapeOf? (members.lookup "inner_shape")
        return .leaf primitive shape tags
      else if kind = "RecordArray" then do
        let fields ← optional none fieldsOf? (members.lookup "fields")
        match members.lookup "contents" with
        | some (.list items) => return .record fields (← readAll? items) tags
        | _ => none
      else
        (members.lookup "content").bind fun value =>
          (readContent? value).bind fun content =>
            if kind = "ListOffsetArray" then do
              return .list (← offsetsOf? (← members.lookup "offsets")) content tags
            else do
              return .regular (← sizeOf? (← members.lookup "size")) content tags := by
  rw [read?]
  split <;> rename_i same <;> rw [known] at same
  · cases same
  · cases same
    congr 1
    funext tags
    split
    · rfl
    · split
      · congr 1
        funext fields
        split <;> rename_i there <;> simp_all
      · split <;> rename_i there
        · rw [there]
          rfl
        · simp only [there, Option.bind_some]

/-! ### one class after the other -/

section
variable {nested : Bool} {json own inner : Json} {members : List (String × Json)} {tags : Tags}
  {content : Option Form}

theorem read?_leaf {primitive : Primitive} {shape : List Nat}
    (known : split? nested json = some ("NumpyArray", members))
    (first : members.lookup "primitive" = some own)
    (second : members.lookup "inner_shape" = some inner)
    (primitiveRead : primitiveOf? own = some primitive) (shapeRead : shapeOf? inner = some shape)
    (tagged : tagsOf? (fun name => members.lookup name) = some tags) :
    read? nested json = some (.leaf primitive shape tags) := by
  rw [read?_of_split known, tagged, first, second]
  simp [optional, primitiveRead, shapeRead]

theorem read?_list {offsets : IndexFormat}
    (known : split? nested json = some ("ListOffsetArray", members))
    (first : members.lookup "offsets" = some own) (second : members.lookup "content" = some inner)
    (offsetsRead : offsetsOf? own = some offsets) (contentRead : readContent? inner = some content)
    (tagged : tagsOf? (fun name => members.lookup name) = some tags) :
    read? nested json = some (.list offsets content tags) := by
  rw [read?_of_split known, tagged, first, second]
  simp [offsetsRead, contentRead]

theorem read?_regular {size : Nat} (known : split? nested json = some ("RegularArray", members))
    (first : members.lookup "size" = some own) (second : members.lookup "content" = some inner)
    (sizeRead : sizeOf? own = some size) (contentRead : readContent? inner = some content)
    (tagged : tagsOf? (fun name => members.lookup name) = some tags) :
    read? nested json = some (.regular size content tags) := by
  rw [read?_of_split known, tagged, first, second]
  simp [sizeRead, contentRead]

theorem read?_record {fields : Option (List String)} {contents : List Form} {items : List Json}
    (known : split? nested json = some ("RecordArray", members))
    (first : members.lookup "fields" = some own)
    (second : members.lookup "contents" = some (.list items))
    (fieldsRead : fieldsOf? own = some fields) (contentsRead : readAll? items = some contents)
    (tagged : tagsOf? (fun name => members.lookup name) = some tags) :
    read? nested json = some (.record fields contents tags) := by
  rw [read?_of_split known, tagged, first, second]
  simp [optional, fieldsRead, contentsRead]

end

/-! ### members -/

theorem tagsOf?_of_written {tags : Tags} (ordered : tags.Ordered) {member : String → Option Json}
    (written : ∀ name value, (name, value) ∈ tagMembers tags → member name = some value) :
    tagsOf? member = some tags := by
  have parameters := written "parameters" (.object tags.parameters) List.mem_cons_self
  have key := written "form_key" (keyJson tags) (List.mem_cons_of_mem _ List.mem_cons_self)
  have same : Json.canonicalMembers [] tags.parameters = tags.parameters :=
    Json.canonicalMembers_of_ordered [] _ (fun _ mem => absurd mem List.not_mem_nil) ordered
  have keyOf : keyOf? (keyJson tags) = some tags.key := by
    unfold keyJson
    split <;> rename_i there <;> rw [there] <;> rfl
  unfold tagsOf?
  rw [parameters, key]
  show (some (Json.canonicalMembers [] tags.parameters)).bind _ = _
  rw [same]
  show (keyOf? (keyJson tags)).bind _ = _
  rw [keyOf]
  rfl

theorem sizeOf?_whole {n : Nat} (small : n < UInt64.size) : sizeOf? (.whole n) = some n := by
  have bounds : (0 : Int) ≤ n ∧ (n : Int) < 0x10000000000000000 := by
    have : n < 0x10000000000000000 := small
    omega
  unfold sizeOf?
  dsimp only
  rw [if_pos bounds, Int.toNat_natCast]

theorem mapM_eq_some {α β : Type} {f : α → Json} {read : Json → Option β} {g : α → β}
    {items : List α} (each : ∀ item ∈ items, read (f item) = some (g item)) :
    (items.map f).mapM read = some (items.map g) := by
  induction items with
  | nil => rfl
  | cons item items ih =>
    rw [List.map_cons, List.mapM_cons, each item List.mem_cons_self,
      ih fun other mem => each other (List.mem_cons_of_mem _ mem)]
    rfl

theorem shapeOf?_list {shape : List Nat} (small : ∀ n ∈ shape, n < UInt64.size) :
    shapeOf? (.list (shape.map fun (n : Nat) => .whole n)) = some shape := by
  have items := mapM_eq_some (g := id) fun n mem => sizeOf?_whole (small n mem)
  rw [List.map_id] at items
  exact items

@[simp] theorem fieldsOf?_fieldsJson (fields : Option (List String)) :
    fieldsOf? (fieldsJson fields) = some fields := by
  cases fields with
  | none => rfl
  | some names =>
    have items : (names.map Json.text).mapM textOf? = some (names.map id) :=
      mapM_eq_some fun _ _ => rfl
    show ((names.map Json.text).mapM textOf?).map some = _
    rw [items, List.map_id]
    rfl

@[simp] theorem primitiveOf?_name (primitive : Primitive) :
    primitiveOf? (.text primitive.name) = some primitive := primitive.ofName?_name

@[simp] theorem offsetsOf?_name (offsets : IndexFormat) :
    offsetsOf? (.text offsets.name) = some offsets := by
  cases offsets <;> rfl

/-! ### forms -/

@[simp] theorem read?_text (nested : Bool) (s : String) : read? nested (.text s) = none := by
  rw [read?]
  split <;> rename_i same
  · rfl
  · cases same

mutual

/-- a form is read from whatever it was written as -/
theorem read?_of_writtenAs (nested : Bool) : (form : Form) → form.WellFormed → (json : Json) →
    form.WrittenAs json → read? nested json = some form
  | .leaf primitive shape tags, ⟨small, ordered⟩, json, written => by
    obtain ⟨members, known, has⟩ := split?_of_isObject (by decide) rfl written nested
    have own := has "primitive" _ List.mem_cons_self
    have dimensions := has "inner_shape" _ (List.mem_cons_of_mem _ List.mem_cons_self)
    have tagged := tagsOf?_of_written ordered fun name value mem =>
      has name value (List.mem_append_right _ mem)
    exact read?_leaf known own dimensions (primitiveOf?_name primitive) (shapeOf?_list small) tagged
  | .list offsets content tags, ⟨inside, ordered⟩, json, ⟨inner, below, written⟩ => by
    obtain ⟨members, known, has⟩ := split?_of_isObject (by decide) rfl written nested
    have own := has "offsets" _ List.mem_cons_self
    have held := has "content" _ (List.mem_cons_of_mem _ List.mem_cons_self)
    have tagged := tagsOf?_of_written ordered fun name value mem =>
      has name value (List.mem_append_right _ mem)
    have content := readContent?_of_writtenAs content inside inner below
    exact read?_list known own held (offsetsOf?_name offsets) content tagged
  | .regular size content tags, ⟨small, inside, ordered⟩, json, ⟨inner, below, written⟩ => by
    obtain ⟨members, known, has⟩ := split?_of_isObject (by decide) rfl written nested
    have own := has "size" _ List.mem_cons_self
    have held := has "content" _ (List.mem_cons_of_mem _ List.mem_cons_self)
    have tagged := tagsOf?_of_written ordered fun name value mem =>
      has name value (List.mem_append_right _ mem)
    have content := readContent?_of_writtenAs content inside inner below
    exact read?_regular known own held (sizeOf?_whole small) content tagged
  | .record fields contents tags, ⟨inside, ordered⟩, json, ⟨items, below, written⟩ => by
    obtain ⟨members, known, has⟩ := split?_of_isObject (by decide) rfl written nested
    have own := has "fields" _ List.mem_cons_self
    have held := has "contents" _ (List.mem_cons_of_mem _ List.mem_cons_self)
    have tagged := tagsOf?_of_written ordered fun name value mem =>
      has name value (List.mem_append_right _ mem)
    have all := readAll?_of_writtenAs contents inside items below
    exact read?_record known own held (fieldsOf?_fieldsJson fields) all tagged

theorem readContent?_of_writtenAs : (content : Option Form) → WellFormedContent content →
    (json : Json) → ContentWrittenAs content json → readContent? json = some content
  | none, _, _, written => by
    cases written
    rw [readContent?, read?_text]
    rfl
  | some form, wellFormed, json, written => by
    rw [readContent?, read?_of_writtenAs true form wellFormed json written]

theorem readAll?_of_writtenAs : (forms : List Form) → WellFormedAll forms →
    (items : List Json) → AllWrittenAs forms items → readAll? items = some forms
  | [], _, _, written => by
    cases written
    rw [readAll?]
  | form :: forms, ⟨first, rest⟩, _, ⟨item, items, same, own, others⟩ => by
    subst same
    rw [readAll?, read?_of_writtenAs true form first item own,
      readAll?_of_writtenAs forms rest items others]
    rfl

end

/-- **A form that was written is read back.**  Whether the members of its JSON stand in the order of
writing or are sorted, the form that is read is the form itself, with every nested form, every
unknown content and all parameters.  So forms that are written as the same JSON are equal. -/
theorem ofJson_toJson {form : Form} (wellFormed : form.WellFormed) :
    ofJson? form.toJson = some form ∧ ofJson? form.toJson.canonical = some form ∧
      ∀ other : Form, other.WellFormed → other.toJson.canonical = form.toJson.canonical →
        other = form := by
  have sorted (form : Form) (wellFormed : form.WellFormed) :
      ofJson? form.toJson.canonical = some form :=
    read?_of_writtenAs false form wellFormed _
      (WrittenAs.canonical form wellFormed _ (writtenAs_toJson form))
  refine ⟨?_, sorted form wellFormed, fun other wellFormedToo same => ?_⟩
  · exact read?_of_writtenAs false form wellFormed _ (writtenAs_toJson form)
  · have read := sorted other wellFormedToo
    rw [same, sorted form wellFormed] at read
    exact (Option.some.inj read).symm

/-- lists of blocks of three numbers, and a tuple of texts and of lists that were always empty; one
of the parameters looks like a form -/
def blocksAndTexts : Form :=
  .record (some ["class", "content"])
    [.regular 3 (some (.leaf .float32 [2, 0] { key := some "node1" })) {},
      .record none [.text .i64 "node2" "node3", .list .u32 none {}]
        { parameters := [("content", .text "NULL"),
            ("like", .object [("class", .text "NumpyArray"), ("primitive", .list [.null])])] }]
    {}

theorem ofJson_toJson_blocksAndTexts : blocksAndTexts.WellFormed ∧
    ofJson? blocksAndTexts.toJson = some blocksAndTexts ∧
    ofJson? blocksAndTexts.toJson.canonical = some blocksAndTexts := by
  have none (key : Option String) : Tags.Ordered { key } := trivial
  have blocks : WellFormed (.regular 3 (some (.leaf .float32 [2, 0] { key := some "node1" })) {}) :=
    ⟨by decide, ⟨by decide, none _⟩, none _⟩
  have names : Tags.Ordered { parameters := [("content", .text "NULL"),
      ("like", .object [("class", .text "NumpyArray"), ("primitive", .list [.null])])] } :=
    ⟨by decide, trivial, by decide, ⟨by decide, trivial, by decide, ⟨trivial, trivial⟩, trivial⟩,
      trivial⟩
  have texts : WellFormed (.text .i64 "node2" "node3") := by
    refine ⟨⟨by decide, ?_⟩, ?_⟩
    · exact ⟨by decide, trivial, trivial⟩
    · exact ⟨by decide, trivial, trivial⟩
  have wellFormed : blocksAndTexts.WellFormed :=
    ⟨⟨blocks, ⟨⟨texts, ⟨trivial, none _⟩, trivial⟩, names⟩, trivial⟩, none _⟩
  obtain ⟨read, sorted, -⟩ := ofJson_toJson wellFormed
  exact ⟨wellFormed, read, sorted⟩

end Form

end Baskets
