/-
Texts between double quotes, with every character that could not be seen or would end the text
replaced by an escape.
-/
import Demarcation.Text.Hidden
import Demarcation.Text.Number

namespace Demarcation.Text

/-- How a character is written between quotes. -/
def escaped (c : Char) : String :=
  if c = '\x00' then "\\0"
  else if c = '\t' then "\\t"
  else if c = '\n' then "\\n"
  else if c = '\r' then "\\r"
  else if c = '"' then "\\\""
  else if c = '\\' then "\\\\"
  else if isHidden c then "\\u\x7b" ++ hex c.toNat ++ "\x7d"
  else c.toString

/-- A text between quotes. -/
def quoted (s : String) : String :=
  "\"" ++ String.join (s.toList.map escaped) ++ "\""

end Demarcation.Text
