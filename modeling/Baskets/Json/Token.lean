import Baskets.Json.Number

/-!
# Tokens of JSON text

`Token.ofText?` cuts a text into tokens, character by character; a `Scanner` holds the tokens so far
and the one that is being read.  Text within quotes may hold every character but a control below
U+0020, the quote and the backslash; those, and by its number any other, are written with a
backslash.  Characters past U+FFFF take two such numbers, and neither may stand alone.
-/

namespace Baskets.Json

inductive Token where
  | openList
  | closeList
  | openObject
  | closeObject
  | comma
  | colon
  /-- a whole value in itself -/
  | atom (value : Json)
deriving Repr

/-- what is being read -/
inductive Scanner.Mode where
  | between
  /-- a numeral or a word; its characters so far, the last one first -/
  | word (chars : List Char)
  | quoted (soFar : String)
  | escape (soFar : String)
  /-- four digits of a code, `left` of them still to come; `high` is the first half of a pair -/
  | code (soFar : String) (high : Option Nat) (value left : Nat)
  /-- the second half of a pair has to follow; first its backslash, then its letter -/
  | pair (soFar : String) (high : Nat) (slash : Bool)

structure Scanner where
  /-- the finished tokens, the last one first -/
  tokens : List Token := []
  mode : Scanner.Mode := .between

namespace Scanner

def push (s : Scanner) (token : Token) : Scanner := { tokens := token :: s.tokens }

/-- the value of a word -/
def wordValue? (word : List Char) : Option Json :=
  if word = "null".toList then some .null
  else if word = "true".toList then some (.bool true)
  else if word = "false".toList then some (.bool false)
  else numberOf? word

/-- ends the word that is being read, if there is one -/
def endWord? (s : Scanner) : Option Scanner :=
  match s.mode with
  | .between => some s
  | .word chars => (wordValue? chars.reverse).map fun value => s.push (.atom value)
  | _ => none

def isWordChar (c : Char) : Bool :=
  c.isAlphanum || c = '-' || c = '+' || c = '.'

/-- takes in a character outside quotes that does not belong to a word -/
def mark? (s : Scanner) (c : Char) : Option Scanner :=
  if c = ' ' || c = '\n' || c = '\t' || c = '\r' then some s
  else if c = '[' then some (s.push .openList)
  else if c = ']' then some (s.push .closeList)
  else if c = '\x7b' then some (s.push .openObject)
  else if c = '\x7d' then some (s.push .closeObject)
  else if c = ',' then some (s.push .comma)
  else if c = ':' then some (s.push .colon)
  else if c = '"' then some { s with mode := .quoted "" }
  else none

/-- the character meant by a short escape -/
def escaped? (c : Char) : Option Char :=
  if c = '"' || c = '\\' || c = '/' then some c
  else if c = 'b' then some '\x08'
  else if c = 'f' then some '\x0c'
  else if c = 'n' then some '\n'
  else if c = 'r' then some '\r'
  else if c = 't' then some '\t'
  else none

def hexValue? (c : Char) : Option Nat :=
  if c.isDigit then some (c.toNat - '0'.toNat)
  else if 'a' ≤ c && c ≤ 'f' then some (c.toNat - 'a'.toNat + 10)
  else if 'A' ≤ c && c ≤ 'F' then some (c.toNat - 'A'.toNat + 10)
  else none

/-- what follows a finished code of four digits -/
def endCode? (soFar : String) (high : Option Nat) (value : Nat) : Option Mode :=
  let isHigh := 0xd800 ≤ value && value < 0xdc00
  let isLow := 0xdc00 ≤ value && value < 0xe000
  match high with
  | none =>
    if isLow then none
    else if isHigh then some (.pair soFar value true)
    else some (.quoted (soFar.push (Char.ofNat value)))
  | some high =>
    if isLow then
      let joined := 0x10000 + (high - 0xd800) * 0x400 + (value - 0xdc00)
      some (.quoted (soFar.push (Char.ofNat joined)))
    else none

def step? (s : Scanner) (c : Char) : Option Scanner :=
  match s.mode with
  | .between | .word _ =>
    if isWordChar c then
      match s.mode with
      | .word chars => some { s with mode := .word (c :: chars) }
      | _ => some { s with mode := .word [c] }
    else s.endWord?.bind fun s => s.mark? c
  | .quoted soFar =>
    if c = '"' then some (s.push (.atom (.text soFar)))
    else if c = '\\' then some { s with mode := .escape soFar }
    else if c < ' ' then none
    else some { s with mode := .quoted (soFar.push c) }
  | .escape soFar =>
    if c = 'u' then some { s with mode := .code soFar none 0 4 }
    else (escaped? c).map fun c => { s with mode := .quoted (soFar.push c) }
  | .code soFar high value left =>
    (hexValue? c).bind fun digit =>
      let value := value * 16 + digit
      if left ≤ 1 then (endCode? soFar high value).map fun mode => { s with mode }
      else some { s with mode := .code soFar high value (left - 1) }
  | .pair soFar high slash =>
    if slash then
      if c = '\\' then some { s with mode := .pair soFar high false } else none
    else
      if c = 'u' then some { s with mode := .code soFar (some high) 0 4 } else none

end Scanner

/-- the tokens of a text -/
def Token.ofText? (text : String) : Option (List Token) := do
  let s ← text.toList.foldlM Scanner.step? {}
  return (← s.endWord?).tokens.reverse

end Baskets.Json
