import Baskets.Form
import Baskets.Json.Parser
import Baskets.Json.Printer

/-!
# Forms as JSON

`Form.toJson` writes every member of a form.  `Form.ofJson?` reads that and more: members in any
order, unknown ones passed over, parameters, keys and inner shapes left out; a form may also be a
list of its class and its members in order, where the last ones may be missing.  A member that is
known may not occur twice.  An unknown content is written as the text `NULL`.
-/

namespace Baskets.Form

/-! ## writing -/

def keyJson (tags : Tags) : Json :=
  match tags.key with
  | some key => .text key
  | none => .null

/-- the two members with which every form ends -/
def tagMembers (tags : Tags) : List (String × Json) :=
  [("parameters", .object tags.parameters), ("form_key", keyJson tags)]

def fieldsJson : Option (List String) → Json
  | none => .null
  | some fields => .list (fields.map .text)

mutual

def toJson : Form → Json
  | .leaf primitive shape tags =>
    .object ([("class", .text "NumpyArray"), ("primitive", .text primitive.name),
      ("inner_shape", .list (shape.map fun (n : Nat) => .whole n))] ++ tagMembers tags)
  | .list offsets content tags =>
    .object ([("class", .text "ListOffsetArray"), ("offsets", .text offsets.name),
      ("content", contentToJson content)] ++ tagMembers tags)
  | .regular size content tags =>
    .object ([("class", .text "RegularArray"), ("size", .whole size),
      ("content", contentToJson content)] ++ tagMembers tags)
  | .record fields contents tags =>
    .object ([("class", .text "RecordArray"), ("fields", fieldsJson fields),
      ("contents", .list (contentsToJson contents))] ++ tagMembers tags)

def contentToJson : Option Form → Json
  | none => .text "NULL"
  | some form => form.toJson

def contentsToJson : List Form → List Json
  | [] => []
  | form :: forms => form.toJson :: contentsToJson forms

end

/-! ## reading the members -/

/-- a size of 64 bits -/
def sizeOf? : Json → Option Nat
  | .whole n => if 0 ≤ n ∧ n < 0x10000000000000000 then some n.toNat else none
  | _ => none

def textOf? : Json → Option String
  | .text s => some s
  | _ => none

/-- a name from a fixed choice: the text itself, or an object whose only member has that name and
holds nothing -/
def choiceOf? : Json → Option String
  | .text s => some s
  | .object [(name, .null)] | .object [(name, .object [])] => some name
  | _ => none

/-- whether a value is the sign of an unknown content -/
def isUnknown : Json → Bool
  | .text s => s = "NULL"
  | .object [(name, .null)] => name = "NULL"
  | _ => false

def shapeOf? : Json → Option (List Nat)
  | .list items => items.mapM sizeOf?
  | _ => none

def parametersOf? : Json → Option (List (String × Json))
  | .object members => some (Json.canonicalMembers [] members)
  | _ => none

def keyOf? : Json → Option (Option String)
  | .null => some none
  | .text s => some (some s)
  | _ => none

def fieldsOf? : Json → Option (Option (List String))
  | .null => some none
  | .list items => (items.mapM textOf?).map some
  | _ => none

def primitiveOf? (value : Json) : Option Primitive := (choiceOf? value).bind Primitive.ofName?

def offsetsOf? (value : Json) : Option IndexFormat :=
  (choiceOf? value).bind fun name =>
    [IndexFormat.i32, .u32, .i64].find? fun offsets => offsets.name = name

/-- the four classes by name, in their fixed order -/
def classNames : List String := ["NumpyArray", "ListOffsetArray", "RegularArray", "RecordArray"]

/-- the class of a form; within another form its number will do -/
def classOf? (nested : Bool) : Json → Option String
  | .text s => if s ∈ classNames then some s else none
  | .whole n => if nested ∧ 0 ≤ n then classNames[n.toNat]? else none
  | _ => none

/-- the members of a class in their fixed order, and how many of them have to be there when they
are written without their names -/
def memberNames (kind : String) : List String × Nat :=
  if kind = "NumpyArray" then (["primitive", "inner_shape", "parameters", "form_key"], 1)
  else if kind = "ListOffsetArray" then (["offsets", "content", "parameters", "form_key"], 2)
  else if kind = "RegularArray" then (["size", "content", "parameters", "form_key"], 2)
  else (["fields", "contents", "parameters", "form_key"], 2)

/-- a member that may be left out -/
def optional {α : Type} (default : α) (read : Json → Option α) : Option Json → Option α
  | none => some default
  | some value => read value

def tagsOf? (member : String → Option Json) : Option Tags := do
  let parameters ← optional [] parametersOf? (member "parameters")
  let key ← optional none keyOf? (member "form_key")
  return { parameters, key }

/-- the class of a form and its known members, by name; fails when one of them occurs twice -/
def split? (nested : Bool) : Json → Option (String × List (String × Json))
  | .object members => do
    let kind ← classOf? nested (← members.lookup "class")
    let known := members.filter fun member => member.1 ∈ (memberNames kind).1
    if Json.countOf "class" members = 1 ∧ known.Pairwise (fun a b => a.1 ≠ b.1) then
      some (kind, known)
    else none
  | .list (first :: items) => do
    let kind ← classOf? nested first
    let (names, required) := memberNames kind
    if required ≤ items.length ∧ items.length ≤ names.length then some (kind, names.zip items)
    else none
  | _ => none

theorem sizeOf_lt_of_lookup {name : String} {value : Json} {members : List (String × Json)}
    (h : members.lookup name = some value) : sizeOf value < sizeOf members := by
  induction members with
  | nil => simp at h
  | cons member rest ih =>
    obtain ⟨other, old⟩ := member
    simp only [List.lookup_cons] at h
    split at h
    · obtain rfl := Option.some.inj h
      simp only [List.cons.sizeOf_spec, Prod.mk.sizeOf_spec]
      omega
    · have := ih h
      simp only [List.cons.sizeOf_spec]
      omega

theorem sizeOf_filter_le (p : String × Json → Bool) (members : List (String × Json)) :
    sizeOf (members.filter p) ≤ sizeOf members := by
  induction members with
  | nil => simp
  | cons member rest ih =>
    simp only [List.filter_cons]
    split <;> simp only [List.cons.sizeOf_spec] <;> omega

theorem sizeOf_lt_of_lookup_zip {name : String} {value : Json} {names : List String}
    {items : List Json} (h : (names.zip items).lookup name = some value) :
    sizeOf value < sizeOf items := by
  induction names generalizing items with
  | nil => simp at h
  | cons other names ih =>
    cases items with
    | nil => simp at h
    | cons item items =>
      simp only [List.zip_cons_cons, List.lookup_cons] at h
      split at h
      · obtain rfl := Option.some.inj h
        simp only [List.cons.sizeOf_spec]
        omega
      · have := ih h
        simp only [List.cons.sizeOf_spec]
        omega

theorem sizeOf_lt_of_split {nested : Bool} {json value : Json} {kind name : String}
    {members : List (String × Json)} (h : split? nested json = some (kind, members))
    (hv : members.lookup name = some value) : sizeOf value < sizeOf json := by
  unfold split? at h
  split at h
  · rename_i all
    simp only [Option.bind_eq_bind, Option.bind_eq_some_iff] at h
    obtain ⟨_, -, _, -, h⟩ := h
    split at h
    · obtain ⟨rfl, rfl⟩ := Prod.mk.inj (Option.some.inj h)
      have := Nat.lt_of_lt_of_le (sizeOf_lt_of_lookup hv) (sizeOf_filter_le _ all)
      simp only [Json.object.sizeOf_spec]
      omega
    · simp at h
  · rename_i first items
    simp only [Option.bind_eq_bind, Option.bind_eq_some_iff] at h
    obtain ⟨_, -, h⟩ := h
    split at h
    · obtain ⟨rfl, rfl⟩ := Prod.mk.inj (Option.some.inj h)
      have := sizeOf_lt_of_lookup_zip hv
      simp only [Json.list.sizeOf_spec, List.cons.sizeOf_spec]
      omega
    · simp at h
  · simp at h

mutual

/-- reads a form, at the top or within another one -/
def read? (nested : Bool) (json : Json) : Option Form :=
  match h : split? nested json with
  | none => none
  | some (kind, members) =>
    (tagsOf? fun name => members.lookup name).bind fun tags =>
      if kind = "NumpyArray" then do
        let primitive ← primitiveOf? (← members.lookup "primitive")
        let shape ← optional [] shapeOf? (members.lookup "inner_shape")
        return .leaf primitive shape tags
      else if kind = "RecordArray" then do
        let fields ← optional none fieldsOf? (members.lookup "fields")
        match hc : members.lookup "contents" with
        | some (.list items) =>
          have := sizeOf_lt_of_split h hc
          return .record fields (← readAll? items) tags
        | _ => none
      else
        match hc : members.lookup "content" with
        | none => none
        | some value =>
          have := sizeOf_lt_of_split h hc
          (readContent? value).bind fun content =>
            if kind = "ListOffsetArray" then do
              return .list (← offsetsOf? (← members.lookup "offsets")) content tags
            else do
              return .regular (← sizeOf? (← members.lookup "size")) content tags
termination_by 2 * sizeOf json
decreasing_by
  · simp only [Json.list.sizeOf_spec] at this
    omega
  · omega

/-- reads the content of a list: a form, or the sign that it is not known -/
def readContent? (json : Json) : Option (Option Form) :=
  match read? true json with
  | some form => some (some form)
  | none => if isUnknown json then some none else none
termination_by 2 * sizeOf json + 1

def readAll? (items : List Json) : Option (List Form) :=
  match items with
  | [] => some []
  | item :: items => do
    let form ← read? true item
    return form :: (← readAll? items)
termination_by 2 * sizeOf items

end

def ofJson? (json : Json) : Option Form := read? false json

/-- reads a form from JSON text -/
def parse? (text : String) : Option Form := (Json.parse? text).bind ofJson?

end Baskets.Form
