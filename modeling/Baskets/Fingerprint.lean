import Baskets.Hash
import Baskets.Registry

/-!
# Fingerprints of registries

`Registry.fingerprint` sums up, for one type, every layout that a value of the type can involve.  It
is the hash of `Registry.description`: for each reachable class in the order of the walk its name
and, if it is registered, the number of its versions and their layouts.
-/

namespace Baskets

/-- the bytes of a type: the number of its case, then its parts -/
def StreamType.description : StreamType → List UInt8
  | .primitive p => Hash.Form.size 0 ++ Hash.Form.size p.ordinal
  | .text .tstring => Hash.Form.size 1 ++ Hash.Form.size 0
  | .text .stdString => Hash.Form.size 1 ++ Hash.Form.size 1
  | .object => Hash.Form.size 2
  | .datime => Hash.Form.size 3
  | .time => Hash.Form.size 4
  | .ref => Hash.Form.size 5
  | .refArray => Hash.Form.size 6
  | .vector element => Hash.Form.size 7 ++ element.description
  | .array element count => Hash.Form.size 8 ++ element.description ++ Hash.Form.size count.toNat
  | .map key value => Hash.Form.size 9 ++ key.description ++ value.description
  | .named name => Hash.Form.size 10 ++ Hash.Form.text name

def Member.description (member : Member) : List UInt8 :=
  Hash.Form.text member.name ++ member.type.description

def Layout.description (layout : Layout) : List UInt8 :=
  Hash.Form.text layout.name ++ Bytes.littleOf 2 layout.version.toNat ++
    Hash.Form.list Hash.Form.text layout.bases ++ Hash.Form.list Member.description layout.members

namespace Registry

/-- the bytes of one class: its name, and its layouts unless there are none -/
def classDescription (registry : Registry) (name : String) : List UInt8 :=
  match registry.ofClass name with
  | [] => Hash.Form.text name
  | layouts => Hash.Form.text name ++ Hash.Form.list Layout.description layouts

/-- the bytes of all classes reachable from a type -/
def description (registry : Registry) (type : StreamType) : List UInt8 :=
  (registry.reachable type).flatMap registry.classDescription

def fingerprint (registry : Registry) (type : StreamType) : UInt64 :=
  Hash.value (registry.description type)

end Registry

end Baskets
