import Baskets.Json.Token

/-!
# Reading JSON text

`Json.parse?` reads one value and refuses anything behind it.  The values that have been begun and
not ended are kept in a stack, so the reader is one walk over the tokens; a value may stand within
at most 127 others.
-/

namespace Baskets.Json

/-- a list or an object that has been begun; the last item stands first -/
inductive Frame where
  | list (items : List Json)
  | object (members : List (String × Json)) (name : String)

/-- what may come next -/
inductive Expect where
  | value
  /-- a value, or the end of an empty list -/
  | firstItem
  /-- a name, or the end of an empty object -/
  | firstName
  | name (members : List (String × Json))
  | colon (members : List (String × Json)) (name : String)
  /-- the end of the text, or what goes on with the innermost list or object -/
  | rest (value : Json)

structure Reader where
  /-- the innermost first -/
  frames : List Frame := []
  expect : Expect := .value

namespace Reader

/-- the greatest number of values around a value -/
def depthLimit : Nat := 127

/-- begins a list or an object -/
def open? (r : Reader) : Token → Option Reader
  | .openList =>
    if r.frames.length < depthLimit then
      some { frames := .list [] :: r.frames, expect := .firstItem }
    else none
  | .openObject =>
    if r.frames.length < depthLimit then
      some { frames := .object [] "" :: r.frames, expect := .firstName }
    else none
  | .atom value => some { r with expect := .rest value }
  | _ => none

def step? (r : Reader) (token : Token) : Option Reader :=
  match r.expect, token with
  | .value, token => r.open? token
  | .firstItem, .closeList =>
    match r.frames with
    | .list _ :: frames => some ⟨frames, .rest (.list [])⟩
    | _ => none
  | .firstItem, token => r.open? token
  | .firstName, .closeObject =>
    match r.frames with
    | .object _ _ :: frames => some ⟨frames, .rest (.object [])⟩
    | _ => none
  | .firstName, .atom (.text name) => some { r with expect := .colon [] name }
  | .name members, .atom (.text name) => some { r with expect := .colon members name }
  | .colon members name, .colon =>
    match r.frames with
    | .object _ _ :: frames => some ⟨.object members name :: frames, .value⟩
    | _ => none
  | .rest value, .comma =>
    match r.frames with
    | .list items :: frames => some ⟨.list (value :: items) :: frames, .value⟩
    | .object members name :: frames =>
      some ⟨.object members name :: frames, .name ((name, value) :: members)⟩
    | [] => none
  | .rest value, .closeList =>
    match r.frames with
    | .list items :: frames => some ⟨frames, .rest (.list (value :: items).reverse)⟩
    | _ => none
  | .rest value, .closeObject =>
    match r.frames with
    | .object members name :: frames =>
      some ⟨frames, .rest (.object ((name, value) :: members).reverse)⟩
    | _ => none
  | _, _ => none

end Reader

/-- the value that a text holds -/
def parse? (text : String) : Option Json := do
  let tokens ← Token.ofText? text
  let r ← tokens.foldlM Reader.step? {}
  match r.frames, r.expect with
  | [], .rest value => some value
  | _, _ => none

end Baskets.Json
