/-
Attributes by the names of operations. A pattern may hold stars, each of which stands for any run
of characters; the name itself wins over every pattern, and a longer pattern over a shorter one.
-/
import Demarcation.Attribute

namespace Demarcation

namespace Pattern

open Demarcation.Text

/-- Whether `accepts` holds of some end of a text. -/
def anySuffix (accepts : List Char → Bool) : List Char → Bool
  | [] => accepts []
  | c :: s => accepts (c :: s) || anySuffix accepts s

/-- A text matches if it can be had from the pattern by putting a text for each star. `pieces` are
the texts around the stars. -/
def matchesPieces : (pieces : List (List Char)) → List Char → Bool
  | [], s => s.isEmpty
  | [last], s => s == last
  | head :: [] :: [], s => (after? head s).isSome
  | head :: next :: rest, s =>
    match after? head s with
    | some s => anySuffix (matchesPieces (next :: rest)) s
    | none => false

def isMatch (pattern text : String) : Bool :=
  matchesPieces (splitAt '*' pattern.toList) text.toList

end Pattern

/-- Patterns with their attributes, in the order in which they were added. -/
abbrev NameMatches (α : Type) := List (String × α)

namespace NameMatches

variable {α : Type}

/-- The attribute with the longest pattern, in bytes; of equally long ones the last. -/
def longest? : NameMatches α → Option (String × α)
  | [] => none
  | m :: ms =>
    match longest? ms with
    | none => some m
    | some n => if n.1.utf8ByteSize < m.1.utf8ByteSize then some m else some n

/-- The mapping that decides about a name. -/
def find? (ms : NameMatches α) (name : String) : Option (String × α) :=
  match List.find? (fun m => m.1 == name) ms with
  | some m => some m
  | none => longest? (ms.filter fun m => Pattern.isMatch m.1 name)

/-- The source of attributes that goes by the operation's name. -/
def source (ms : NameMatches Attribute) : AttributeSource :=
  fun o => (ms.find? o.name).map Prod.snd

end NameMatches

end Demarcation
