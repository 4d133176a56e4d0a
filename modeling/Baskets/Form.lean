import Baskets.Context
import Baskets.Json

/-!
# Forms

A `Form` says how the columns of an array of objects belong together: leaves of numbers, lists with
offsets, lists of one length, records with or without names.  Each form carries `Tags`, namely
parameters and the key that names its columns.  The content of a list may still be unknown, when
every list seen so far was empty.
-/

namespace Baskets

/-- the parameters of a form, sorted by name, and the name of its columns -/
structure Tags where
  parameters : List (String × Json) := []
  key : Option String := none
deriving BEq, Repr, Inhabited

inductive Form where
  /-- numbers, in blocks of a fixed shape -/
  | leaf (primitive : Primitive) (innerShape : List Nat) (tags : Tags)
  /-- lists of any length -/
  | list (offsets : IndexFormat) (content : Option Form) (tags : Tags)
  /-- lists of one length -/
  | regular (size : Nat) (content : Option Form) (tags : Tags)
  /-- a record, or a tuple when there are no names -/
  | record (fields : Option (List String)) (contents : List Form) (tags : Tags)
deriving BEq, Repr, Inhabited

namespace Form

/-- the name of the class of arrays that the form describes -/
def className : Form → String
  | .leaf .. => "NumpyArray"
  | .list .. => "ListOffsetArray"
  | .regular .. => "RegularArray"
  | .record .. => "RecordArray"

def tags : Form → Tags
  | .leaf _ _ tags | .list _ _ tags | .regular _ _ tags | .record _ _ tags => tags

def mapTags (f : Tags → Tags) : Form → Form
  | .leaf primitive shape tags => .leaf primitive shape (f tags)
  | .list offsets content tags => .list offsets content (f tags)
  | .regular size content tags => .regular size content (f tags)
  | .record fields contents tags => .record fields contents (f tags)

/-- the form with one parameter set to a text -/
def withParameter (form : Form) (name value : String) : Form :=
  form.mapTags fun tags =>
    { tags with parameters := Json.insert name (.text value) tags.parameters }

def withKey (form : Form) (key : String) : Form := form.mapTags fun tags => { tags with key }

/-- the parameter of that name, if it is a text -/
def textParameter? (form : Form) (name : String) : Option String :=
  match form.tags.parameters.lookup name with
  | some (.text s) => some s
  | _ => none

def isList : Form → Bool
  | .list .. | .regular .. => true
  | _ => false

/-- the known content of a list -/
def content? : Form → Option Form
  | .list _ content _ | .regular _ content _ => content
  | _ => none

/-- a list with another content; other forms stay as they are -/
def withContent (form : Form) (content : Option Form) : Form :=
  match form with
  | .list offsets _ tags => .list offsets content tags
  | .regular size _ tags => .regular size content tags
  | form => form

mutual

/-- the keys in a form, its own first -/
def keys : Form → List String
  | .leaf _ _ tags => tags.key.toList
  | .list _ content tags | .regular _ content tags => tags.key.toList ++ contentKeys content
  | .record _ contents tags => tags.key.toList ++ contentsKeys contents

def contentKeys : Option Form → List String
  | none => []
  | some form => form.keys

def contentsKeys : List Form → List String
  | [] => []
  | form :: forms => form.keys ++ contentsKeys forms

end

/-! ## the forms that readers make -/

def numpy (primitive : Primitive) : Form := .leaf primitive [] {}

/-- numbers in the columns of that name -/
def numbers (primitive : Primitive) (key : String) : Form := (numpy primitive).withKey key

/-- texts: lists of bytes, with a mark on the lists and one on the bytes -/
def text (offsets : IndexFormat) (offsetsKey charsKey : String) : Form :=
  let chars := ((numpy .uint8).withParameter "__array__" "char").withKey charsKey
  ((Form.list offsets (some chars) {}).withParameter "__array__" "string").withKey offsetsKey

/-- a record that stands for the objects of a class -/
def ofClass (fields : List String) (contents : List Form) (className key : String) : Form :=
  ((Form.record (some fields) contents {}).withParameter "__record__" className).withKey key

/-- whether the form is a list that stands for text or plain bytes -/
def isText (form : Form) : Bool :=
  (form.textParameter? "__array__" = some "string" ||
      form.textParameter? "__array__" = some "bytestring") &&
    match form.content? with
    | some (.leaf ..) => true
    | _ => false

/-- whether the form is a list of the pairs of a map -/
def isMap (form : Form) : Bool :=
  match form.content? with
  | some (.record fields contents tags) =>
    (Form.record fields contents tags).textParameter? "__array__" = some "sorted_map"
  | _ => false

/-- puts a form at the bottom of a chain of lists, in the place of the first content that is no
list -/
def graft (bottom : Form) : Form → Form
  | .list offsets (some inner) tags =>
    .list offsets (some (if inner.isList then graft bottom inner else bottom)) tags
  | .list offsets none tags => .list offsets (some bottom) tags
  | .regular size (some inner) tags =>
    .regular size (some (if inner.isList then graft bottom inner else bottom)) tags
  | .regular size none tags => .regular size (some bottom) tags
  | form => form

end Form

end Baskets
