import Baskets.Bytes
import Baskets.Fault

/-!
# Ranges of a file

Positions in a file are numbers of 64 bits, so a range whose end is no such number is refused before
its end is compared with the size of the file.
-/

namespace Baskets.Bytes

/-- the bytes of a range that lies in the file -/
def range (file : Bytes) (start length : Nat) : Except Fault Bytes :=
  if 0x10000000000000000 ≤ start + length then .error (.malformed (.rangeOverflow length))
  else if start + length ≤ file.size then .ok (file.extract start (start + length))
  else .error (.underflow start length (file.size - start))

end Baskets.Bytes
