import Baskets.Json.Number
import Baskets.Text.Quoted

/-!
# Writing JSON text

`Json.compact` writes a value on one line without blanks, `Json.pretty` with one item to a line and
two blanks for each level.  Of the characters of a text only the quote, the backslash and the
controls below U+0020 are escaped.
-/

namespace Baskets.Json

/-- one character as it stands between the quotes -/
def escapedChar (c : Char) : String :=
  if c = '"' then "\\\""
  else if c = '\\' then "\\\\"
  else if c = '\x08' then "\\b"
  else if c = '\x0c' then "\\f"
  else if c = '\n' then "\\n"
  else if c = '\r' then "\\r"
  else if c = '\t' then "\\t"
  else if c < ' ' then
    let digits := Text.hexDigits c.toNat
    "\\u" ++ String.ofList (List.replicate (4 - digits.length) '0') ++ digits
  else c.toString

def quoted (s : String) : String :=
  s.foldl (fun acc c => acc ++ escapedChar c) "\"" ++ "\""

mutual

def compact : Json → String
  | .null => "null"
  | .bool b => if b then "true" else "false"
  | .whole n => toString n
  | .double bits => doubleText bits
  | .text s => quoted s
  | .list items => "[" ++ compactItems items ++ "]"
  | .object members => "\x7b" ++ compactMembers members ++ "\x7d"

def compactItems : List Json → String
  | [] => ""
  | [item] => item.compact
  | item :: items => item.compact ++ "," ++ compactItems items

def compactMembers : List (String × Json) → String
  | [] => ""
  | [(name, value)] => quoted name ++ ":" ++ value.compact
  | (name, value) :: rest => quoted name ++ ":" ++ value.compact ++ "," ++ compactMembers rest

end

/-- the blanks in front of a line -/
def indent (level : Nat) : String := String.ofList (List.replicate (2 * level) ' ')

mutual

/-- a value whose items stand one level further in than `level` -/
def prettyAt (level : Nat) : Json → String
  | .list [] => "[]"
  | .list items => "[\n" ++ prettyItems (level + 1) items ++ "\n" ++ indent level ++ "]"
  | .object [] => "\x7b\x7d"
  | .object members =>
    "\x7b\n" ++ prettyMembers (level + 1) members ++ "\n" ++ indent level ++ "\x7d"
  | .text s => quoted s
  | .null => "null"
  | .bool b => if b then "true" else "false"
  | .whole n => toString n
  | .double bits => doubleText bits

def prettyItems (level : Nat) : List Json → String
  | [] => ""
  | [item] => indent level ++ item.prettyAt level
  | item :: items => indent level ++ item.prettyAt level ++ ",\n" ++ prettyItems level items

def prettyMembers (level : Nat) : List (String × Json) → String
  | [] => ""
  | [(name, value)] => indent level ++ quoted name ++ ": " ++ value.prettyAt level
  | (name, value) :: rest =>
    indent level ++ quoted name ++ ": " ++ value.prettyAt level ++ ",\n" ++ prettyMembers level rest

end

def pretty (value : Json) : String := value.prettyAt 0

end Baskets.Json
