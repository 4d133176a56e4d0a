import Baskets.Primitive

/-!
# Types of streamed values and layouts of classes

A `StreamType` says how the bytes of one value are laid out.  Classes are mentioned by name; what
they hold is said by a `Layout`, one for each version of the class.  Eight names belong to classes
with a layout of their own, and `StreamType.ofClass` knows them.
-/

namespace Baskets

/-- the two kinds of text member; only the second has a header of its own -/
inductive TextKind where
  | tstring
  | stdString
deriving DecidableEq, Repr

inductive StreamType where
  | primitive (p : Primitive)
  | text (kind : TextKind)
  /-- the head of a `TObject` -/
  | object
  /-- packed date and time -/
  | datime
  /-- milliseconds -/
  | time
  /-- the number of an object elsewhere -/
  | ref
  /-- a named list of numbers of objects elsewhere -/
  | refArray
  | vector (element : StreamType)
  | array (element : StreamType) (count : UInt64)
  | map (key value : StreamType)
  /-- a class to be looked up -/
  | named (name : String)
deriving DecidableEq, Repr, Inhabited

namespace StreamType

/-- a class by its name, the built-in ones told apart -/
def ofClass (name : String) : StreamType :=
  if name = "TObject" then .object
  else if name = "TString" then .text .tstring
  else if name = "string" ∨ name = "std::string" then .text .stdString
  else if name = "TDatime" then .datime
  else if name = "TTime" then .time
  else if name = "TRef" then .ref
  else if name = "TRefArray" then .refArray
  else .named name

/-- the type as it is spelt in declarations -/
def signature : StreamType → String
  | .primitive p => p.spelling
  | .text .tstring => "TString"
  | .text .stdString => "std::string"
  | .object => "TObject"
  | .datime => "TDatime"
  | .time => "TTime"
  | .ref => "TRef"
  | .refArray => "TRefArray"
  | .vector element => "std::vector<" ++ element.signature ++ ">"
  | .array element count => element.signature ++ "[" ++ toString count.toNat ++ "]"
  | .map key value => "std::map<" ++ key.signature ++ ", " ++ value.signature ++ ">"
  | .named name => name

def primitive? : StreamType → Option Primitive
  | .primitive p => some p
  | _ => none

/-- the classes that have to be looked up, from left to right -/
def classes : StreamType → List String
  | .vector element | .array element _ => element.classes
  | .map key value => key.classes ++ value.classes
  | .named name => [name]
  | _ => []

end StreamType

/-- a data member of a class -/
structure Member where
  name : String
  type : StreamType
deriving DecidableEq, Repr

/-- how the objects of one version of a class are laid out: the bases, then the members -/
structure Layout where
  name : String
  version : UInt16
  bases : List String := []
  members : List Member := []
deriving DecidableEq, Repr

/-- the classes a layout mentions, in the order of writing -/
def Layout.classes (layout : Layout) : List String :=
  layout.bases ++ layout.members.flatMap fun member => member.type.classes

end Baskets
