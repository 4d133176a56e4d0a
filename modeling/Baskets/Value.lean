/-!
# Values of objects

What an object turns out to hold.  Fields and pairs keep the order in which they were written, and
a name may occur twice: the fields of the bases of a class stand before its own.
-/

namespace Baskets

inductive Value where
  | bool (b : Bool)
  | int (n : Int)
  | uint (n : Nat)
  /-- a double, by its bits -/
  | double (bits : UInt64)
  | text (s : String)
  | list (items : List Value)
  | map (pairs : List (Value × Value))
  | record (fields : List (String × Value))
deriving BEq, Repr, Inhabited

namespace Value

/-- the first field of that name, if the value is a record -/
def field? (name : String) : Value → Option Value
  | .record fields => fields.lookup name
  | _ => none

/-- the elements, if the value is a list -/
def items? : Value → Option (List Value)
  | .list items => some items
  | _ => none

end Value

end Baskets
