import Mathlib.Data.List.Basic
import Baskets.Program

/-!
# The machine that runs decoders

What the words of a program mean.  A text is split into words at blanks and line ends, each word is
a `Token`, and the tokens make up commands, where `do … loop` and `if … then` may stand in one
another.  The commands run on a `Machine`: an input with a place in it, a stack of numbers, and
columns that only grow.

A loop runs as often as its start is below its limit, and not at all otherwise.  Numbers have no
bounds here, neither on the stack nor in columns.  What goes wrong (an empty stack, too few bytes, a
word out of place) ends the run without a result.
-/

namespace Baskets

/-! ## words -/

/-- the two kinds of blocks -/
inductive Block where
  | loop
  | when
deriving DecidableEq, Repr

inductive Token where
  /-- the input -/
  | stream
  | skip
  /-- moves one number of the input -/
  | read (p : Primitive)
  /-- moves as many numbers of the input as the stack says -/
  | readMany (p : Primitive)
  /-- the stack as a target or a source -/
  | stack
  | dup
  | drop
  | equal
  | append
  | accumulate
  | opening (kind : Block)
  | closing (kind : Block)
  | number (n : Nat)
  /-- any other word names a column -/
  | name (column : String)
deriving DecidableEq, Repr

namespace Token

/-- the words that are no numbers and no names -/
def keywords : List (String × Token) :=
  [("stream", stream), ("skip", skip), ("stack", stack), ("dup", dup), ("drop", drop), ("=", equal),
    ("<-", append), ("+<-", accumulate), ("do", opening .loop), ("loop", closing .loop),
    ("if", opening .when), ("then", closing .when)] ++
  Primitive.all.map (fun p => ("!" ++ p.code ++ "->", read p)) ++
  Primitive.all.map fun p => ("#!" ++ p.code ++ "->", readMany p)

def ofWord (word : String) : Token :=
  match keywords.lookup word with
  | some token => token
  | none =>
    if word.toList.all Char.isDigit then .number (Nat.ofDigitChars 10 word.toList 0)
    else .name word

def blank (c : Char) : Bool := c = ' ' || c = '\n'

/-- the words of a text -/
def words (text : List Char) : List (List Char) :=
  (text.splitOnP blank).filter fun word => !word.isEmpty

def ofText (text : List Char) : List Token := (words text).map fun word => ofWord (.ofList word)

end Token

/-! ## commands -/

inductive Command where
  | push (n : Int)
  | dup
  | drop
  /-- puts -1 in the place of two equal numbers and 0 in that of two others -/
  | equal
  | skip
  /-- moves a number of the input to the stack -/
  | take (p : Primitive)
  /-- moves a number of the input to a column -/
  | read (p : Primitive) (column : String)
  /-- moves as many numbers of the input to a column as the stack says -/
  | readMany (p : Primitive) (column : String)
  /-- moves a number of the stack to a column -/
  | append (column : String)
  /-- adds a number of the stack to the last one of a column and puts the sum behind it -/
  | accumulate (column : String)
  | loop (body : List Command)
  | when (body : List Command)
deriving Repr

namespace Command

def ofBlock : Block → List Command → Command
  | .loop => .loop
  | .when => .when

/-- puts tokens together; `done` is what came so far in the innermost block that is open, and
`outer` what came before each open block, the innermost first -/
def parse : List Token → (done : List Command) → (outer : List (Block × List Command)) →
    Option (List Command)
  | [], done, [] => some done
  | .number n :: rest, done, outer => parse rest (done ++ [.push n]) outer
  | .dup :: rest, done, outer => parse rest (done ++ [.dup]) outer
  | .drop :: rest, done, outer => parse rest (done ++ [.drop]) outer
  | .equal :: rest, done, outer => parse rest (done ++ [.equal]) outer
  | .stream :: .skip :: rest, done, outer => parse rest (done ++ [.skip]) outer
  | .stream :: .read p :: .stack :: rest, done, outer => parse rest (done ++ [.take p]) outer
  | .stream :: .read p :: .name column :: rest, done, outer =>
    parse rest (done ++ [.read p column]) outer
  | .stream :: .readMany p :: .name column :: rest, done, outer =>
    parse rest (done ++ [.readMany p column]) outer
  | .name column :: .append :: .stack :: rest, done, outer =>
    parse rest (done ++ [.append column]) outer
  | .name column :: .accumulate :: .stack :: rest, done, outer =>
    parse rest (done ++ [.accumulate column]) outer
  | .opening kind :: rest, done, outer => parse rest [] ((kind, done) :: outer)
  | .closing kind :: rest, done, (opened, before) :: outer =>
    if kind = opened then parse rest (before ++ [.ofBlock kind done]) outer else none
  | _, _, _ => none

end Command

/-! ## runs -/

/-- what is in each column, by name -/
abbrev Columns := String → List Value

structure Machine where
  cursor : Cursor
  /-- the top first -/
  stack : List Int := []
  columns : Columns := fun _ => []

namespace Columns

def append (column : String) (value : Value) (columns : Columns) : Columns :=
  fun name => if name = column then columns name ++ [value] else columns name

/-- the last number of a column, 0 if there is none -/
def total (values : List Value) : Int :=
  match values.getLast? with
  | some (.int n) => n
  | _ => 0

def accumulate (column : String) (n : Int) (columns : Columns) : Columns :=
  columns.append column (.int (total (columns column) + n))

end Columns

/-- a whole number as it goes on the stack -/
def Value.whole? : Value → Option Int
  | .int n => some n
  | .uint n => some n
  | _ => none

namespace Machine

/-- moves on by a scan of the input -/
def scan {α : Type} (s : Scan α) (m : Machine) : Option (α × Machine) :=
  match s.run m.cursor with
  | (.ok a, cursor) => some (a, { m with cursor })
  | (.error _, _) => none

/-- moves a number of the input to a column -/
def readInto (p : Primitive) (column : String) (m : Machine) : Option Machine := do
  let (value, m) ← m.scan p.scan
  return { m with columns := m.columns.append column value }

/-- does something so many times -/
def times (step : Machine → Option Machine) : Nat → Machine → Option Machine
  | 0, m => some m
  | count + 1, m => do times step count (← step m)

end Machine

namespace Command

mutual

def exec : Command → Machine → Option Machine
  | .push n, m => some { m with stack := n :: m.stack }
  | .dup, m =>
    match m.stack with
    | n :: stack => some { m with stack := n :: n :: stack }
    | [] => none
  | .drop, m =>
    match m.stack with
    | _ :: stack => some { m with stack }
    | [] => none
  | .equal, m =>
    match m.stack with
    | a :: b :: stack => some { m with stack := (if a = b then -1 else 0) :: stack }
    | _ => none
  | .skip, m =>
    match m.stack with
    | .ofNat n :: stack => (Machine.scan (Scan.skip n) { m with stack }).map Prod.snd
    | _ => none
  | .take p, m => do
    let (value, m) ← m.scan p.scan
    return { m with stack := (← value.whole?) :: m.stack }
  | .read p column, m => m.readInto p column
  | .readMany p column, m =>
    match m.stack with
    | .ofNat n :: stack => Machine.times (Machine.readInto p column) n { m with stack }
    | _ => none
  | .append column, m =>
    match m.stack with
    | n :: stack => some { m with stack, columns := m.columns.append column (.int n) }
    | [] => none
  | .accumulate column, m =>
    match m.stack with
    | n :: stack => some { m with stack, columns := m.columns.accumulate column n }
    | [] => none
  | .loop body, m =>
    match m.stack with
    | start :: limit :: stack =>
      Machine.times (fun m => execAll body m) (limit - start).toNat { m with stack }
    | _ => none
  | .when body, m =>
    match m.stack with
    | flag :: stack => if flag = 0 then some { m with stack } else execAll body { m with stack }
    | [] => none

def execAll : List Command → Machine → Option Machine
  | [], m => some m
  | command :: commands, m => do execAll commands (← command.exec m)

end

end Command

/-- runs a text -/
def Machine.run (text : String) (m : Machine) : Option Machine := do
  Command.execAll (← Command.parse (Token.ofText text.toList) [] []) m

end Baskets
