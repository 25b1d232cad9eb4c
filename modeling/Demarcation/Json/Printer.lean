/-
The compact text of a JSON tree: no blanks, and in quoted texts only the escapes that are needed.
-/
import Demarcation.Json.Basic
import Demarcation.Text.Number

namespace Demarcation.Json

/-- Two hexadecimal digits. -/
def hexPair (n : Nat) : List Char :=
  let ds := Nat.toDigits 16 n
  List.replicate (2 - ds.length) '0' ++ ds

/-- How a character is written between quotes: short escapes where there are some, numbered ones
for the other control characters. -/
def escape (c : Char) : List Char :=
  if c = '"' then ['\\', '"']
  else if c = '\\' then ['\\', '\\']
  else if c = '\x08' then ['\\', 'b']
  else if c = '\x0c' then ['\\', 'f']
  else if c = '\n' then ['\\', 'n']
  else if c = '\r' then ['\\', 'r']
  else if c = '\t' then ['\\', 't']
  else if c.toNat < 0x20 then ['\\', 'u', '0', '0'] ++ hexPair c.toNat
  else [c]

def quote (s : List Char) : List Char := '"' :: s.flatMap escape ++ ['"']

/-- A literal that spells no text is written as the empty one. -/
def Literal.print (s : Literal) : List Char := quote ((s.getD "").toList)

def Number.print (n : Number) : List Char :=
  (if n.negative then ['-'] else []) ++ n.whole ++
    (match n.fraction with
      | none => []
      | some ds => '.' :: ds) ++
    (match n.exponent with
      | none => []
      | some (negative, ds) => 'e' :: if negative then '-' :: ds else ds)

mutual

def print : Json → List Char
  | .null => "null".toList
  | .bool true => "true".toList
  | .bool false => "false".toList
  | .number n => n.print
  | .text s => s.print
  | .array items => '[' :: printItems items
  | .object members => '\x7b' :: printMembers members

/-- The items and the closing bracket. -/
def printItems : List Json → List Char
  | [] => [']']
  | [j] => print j ++ [']']
  | j :: k :: items => print j ++ ',' :: printItems (k :: items)

/-- The members and the closing brace. -/
def printMembers : List (Literal × Json) → List Char
  | [] => ['\x7d']
  | [(k, j)] => k.print ++ ':' :: print j ++ ['\x7d']
  | (k, j) :: m :: members => k.print ++ ':' :: print j ++ ',' :: printMembers (m :: members)

end

def toText (j : Json) : String := String.ofList (print j)

end Demarcation.Json
