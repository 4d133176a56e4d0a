import Baskets.Cursor
import Baskets.Double
import Baskets.Value

/-!
# Numbers of fixed width

The eleven primitive types, most significant byte first on disk, with the three ways in which they
are spelt: `name` in forms and declarations of output, `code` in instructions that move numbers
from the stream, `spelling` in type signatures.
-/

namespace Baskets

inductive Primitive where
  | bool
  | int8
  | int16
  | int32
  | int64
  | uint8
  | uint16
  | uint32
  | uint64
  | float32
  | float64
deriving DecidableEq, Repr, Inhabited

namespace Primitive

/-- all primitives in their fixed order -/
def all : List Primitive :=
  [.bool, .int8, .int16, .int32, .int64, .uint8, .uint16, .uint32, .uint64, .float32, .float64]

theorem mem_all (p : Primitive) : p ∈ all := by cases p <;> decide

/-- the place in the fixed order -/
def ordinal (p : Primitive) : Nat := all.idxOf p

/-- the width in bytes -/
def width : Primitive → Nat
  | .bool | .int8 | .uint8 => 1
  | .int16 | .uint16 => 2
  | .int32 | .uint32 | .float32 => 4
  | .int64 | .uint64 | .float64 => 8

def name : Primitive → String
  | .bool => "bool"
  | .int8 => "int8"
  | .int16 => "int16"
  | .int32 => "int32"
  | .int64 => "int64"
  | .uint8 => "uint8"
  | .uint16 => "uint16"
  | .uint32 => "uint32"
  | .uint64 => "uint64"
  | .float32 => "float32"
  | .float64 => "float64"

/-- the letter that stands for the type in a stream instruction -/
def code : Primitive → String
  | .bool => "?"
  | .int8 => "b"
  | .int16 => "h"
  | .int32 => "i"
  | .int64 => "q"
  | .uint8 => "B"
  | .uint16 => "H"
  | .uint32 => "I"
  | .uint64 => "Q"
  | .float32 => "f"
  | .float64 => "d"

def spelling : Primitive → String
  | .bool => "bool"
  | .int8 => "char"
  | .int16 => "short"
  | .int32 => "int"
  | .int64 => "long long"
  | .uint8 => "unsigned char"
  | .uint16 => "unsigned short"
  | .uint32 => "unsigned int"
  | .uint64 => "unsigned long long"
  | .float32 => "float"
  | .float64 => "double"

def ofName? (name : String) : Option Primitive := all.find? fun p => p.name = name

@[simp] theorem ofName?_name (p : Primitive) : ofName? p.name = some p := by cases p <;> decide

/-- reads one number -/
def scan : Primitive → Scan Value
  | .bool => return .bool (← Scan.bool)
  | .int8 => return .int (← Scan.signed 1)
  | .int16 => return .int (← Scan.signed 2)
  | .int32 => return .int (← Scan.signed 4)
  | .int64 => return .int (← Scan.signed 8)
  | .uint8 => return .uint (← Scan.unsigned 1)
  | .uint16 => return .uint (← Scan.unsigned 2)
  | .uint32 => return .uint (← Scan.unsigned 4)
  | .uint64 => return .uint (← Scan.unsigned 8)
  | .float32 => return .double (Double.ofSingle (← Scan.unsigned 4))
  | .float64 => return .double (UInt64.ofNat (← Scan.unsigned 8))

end Primitive

end Baskets
