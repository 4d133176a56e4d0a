/-!
# JSON trees

A `Json` value as it was written: the members of an object in their order, a name as often as it
occurs.  Numbers without fraction or exponent in the range of 64 bits, signed or unsigned, are
whole; all others are doubles, by their bits.  `Json.canonical` sorts the members of every object by
name and keeps the last of those with one name.
-/

namespace Baskets

inductive Json where
  | null
  | bool (b : Bool)
  | whole (n : Int)
  | double (bits : UInt64)
  | text (s : String)
  | list (items : List Json)
  | object (members : List (String × Json))
deriving BEq, Repr, Inhabited

namespace Json

/-- the number of members with that name -/
def countOf (name : String) (members : List (String × Json)) : Nat :=
  members.countP fun member => member.1 = name

/-- puts a member in its place, over the one of the same name if there is one -/
def insert (name : String) (value : Json) : List (String × Json) → List (String × Json)
  | [] => [(name, value)]
  | (other, old) :: rest =>
    if name < other then (name, value) :: (other, old) :: rest
    else if name = other then (name, value) :: rest
    else (other, old) :: insert name value rest

mutual

/-- the same value with sorted objects -/
def canonical : Json → Json
  | .list items => .list (canonicalItems items)
  | .object members => .object (canonicalMembers [] members)
  | value => value

def canonicalItems : List Json → List Json
  | [] => []
  | item :: items => item.canonical :: canonicalItems items

/-- puts the members in one by one -/
def canonicalMembers (sorted : List (String × Json)) :
    List (String × Json) → List (String × Json)
  | [] => sorted
  | (name, value) :: rest => canonicalMembers (insert name value.canonical sorted) rest

end

/-- a member of an object, or the null value -/
def get (name : String) : Json → Json
  | .object members => (members.lookup name).getD .null
  | _ => .null

end Json

end Baskets
