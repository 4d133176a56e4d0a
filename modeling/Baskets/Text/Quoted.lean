import Baskets.Text.Hidden

/-!
# Quoted text

`Text.quoted s` shows a text between double quotes on one line: the two marks `"` and `\` and the
usual controls get a short escape, hidden characters the number of their code point between braces,
and everything else, the apostrophe included, stands for itself.
-/

namespace Baskets.Text

/-- the digits of a number in base sixteen, in lower case and without leading zeros -/
def hexDigits (n : Nat) : String := String.ofList (Nat.toDigits 16 n)

/-- one character as it stands between the quotes -/
def quotedChar (c : Char) : String :=
  if c = '"' then "\\\""
  else if c = '\\' then "\\\\"
  else if c = '\n' then "\\n"
  else if c = '\r' then "\\r"
  else if c = '\t' then "\\t"
  else if c = '\x00' then "\\0"
  else if isHidden c then "\\u\x7b" ++ hexDigits c.toNat ++ "\x7d"
  else c.toString

def quoted (s : String) : String :=
  s.foldl (fun acc c => acc ++ quotedChar c) "\"" ++ "\""

end Baskets.Text
