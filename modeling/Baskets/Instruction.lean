import Baskets.Form

/-!
# Instructions of generated decoders

A decoder is a program for a stack machine with one input, the stream, and any number of output
columns.  An `Instruction` is one step of such a program, an `Output` declares a column.  A list of
any length is read by putting its length on the stack and on the offsets, and then either moving
that many numbers at once or running a loop that takes the length from the stack.
-/

namespace Baskets

/-- a column that a program fills -/
inductive Output where
  /-- numbers of one primitive type -/
  | data (key : String) (primitive : Primitive)
  /-- where the lists end, counted in elements -/
  | offsets (key : String) (format : IndexFormat)
deriving DecidableEq, Repr

namespace Output

/-- the name of the column -/
def name : Output → String
  | .data key _ => key ++ "-data"
  | .offsets key _ => key ++ "-offsets"

def typeName : Output → String
  | .data _ primitive => primitive.name
  | .offsets _ format => format.outputType

/-- the declaration of the column -/
def text (output : Output) : String := "output " ++ output.name ++ " " ++ output.typeName ++ "\n"

end Output

/-- one step, or the start or end of a loop -/
inductive Instruction where
  /-- starts the offsets at zero -/
  | zero (offsets : String)
  /-- goes on by some bytes -/
  | skip (bytes : Nat)
  /-- moves one number to a column -/
  | number (primitive : Primitive) (data : String)
  /-- moves as many numbers as the stack says to a column -/
  | numbers (primitive : Primitive) (data : String)
  /-- moves some numbers to a column -/
  | block (count : Nat) (primitive : Primitive) (data : String)
  /-- puts the length of a list on the stack and on the offsets -/
  | length (offsets : String)
  /-- moves a text, whose length takes one byte or five -/
  | text (offsets chars : String)
  /-- puts the number of references on the stack and in a column -/
  | referenceCount (data : String)
  /-- moves the references to a column -/
  | references (offsets data : String)
  /-- begins a loop as long as the stack says -/
  | loopTaking
  /-- begins such a loop and leaves the length on the stack -/
  | loopKeeping
  /-- begins a loop of some rounds -/
  | loopTimes (count : Nat)
  | loopEnd
deriving DecidableEq, Repr

namespace Instruction

def word : Instruction → String
  | .zero offsets => "0 " ++ offsets ++ "-offsets <- stack"
  | .skip bytes => toString bytes ++ " stream skip"
  | .number primitive data => "stream !" ++ primitive.code ++ "-> " ++ data ++ "-data"
  | .numbers primitive data => "stream #!" ++ primitive.code ++ "-> " ++ data ++ "-data"
  | .block count primitive data =>
    toString count ++ " stream #!" ++ primitive.code ++ "-> " ++ data ++ "-data"
  | .length offsets => "stream !I-> stack\ndup " ++ offsets ++ "-offsets +<- stack"
  | .text offsets chars =>
    "stream !B-> stack dup 255 = if drop stream !I-> stack then dup " ++ offsets ++
      "-offsets +<- stack stream #!B-> " ++ chars ++ "-data"
  | .referenceCount data => "stream !i-> stack dup " ++ data ++ "-data <- stack"
  | .references offsets data =>
    "dup " ++ offsets ++ "-offsets +<- stack stream #!i-> " ++ data ++ "-data"
  | .loopTaking => "0 do"
  | .loopKeeping => "dup 0 do"
  | .loopTimes count => toString count ++ " 0 do"
  | .loopEnd => "loop"

/-- the instruction as it stands in a program -/
def line (instruction : Instruction) : String := instruction.word ++ "\n"

/-- goes on by some bytes, and is no instruction for none -/
def skipAny (bytes : Nat) : List Instruction := if bytes = 0 then [] else [.skip bytes]

end Instruction

end Baskets
