/-
Texts of the JSON data format, as trees: the members of an object stay in their written order and
may repeat, and a number stays as it was written, so that each reader decides what they mean.
-/

namespace Demarcation

namespace Json

/-- A number as written: its digits before the point, after the point, and its exponent. -/
structure Number where
  negative : Bool
  whole : List Char
  fraction : Option (List Char)
  exponent : Option (Bool × List Char)
deriving DecidableEq, Repr

/-- A quoted text, or nothing if its escapes spell half of a surrogate pair. -/
abbrev Literal := Option String

end Json

open Json in
inductive Json
  | null
  | bool (b : Bool)
  | number (n : Number)
  | text (s : Literal)
  | array (items : List Json)
  | object (members : List (Literal × Json))
deriving Inhabited

namespace Json

/-- Digits of a natural number. -/
def Number.ofNat (n : Nat) : Number := ⟨false, Nat.toDigits 10 n, none, none⟩

def Number.ofInt (n : Int) : Number := ⟨n < 0, Nat.toDigits 10 n.natAbs, none, none⟩

def ofNat (n : Nat) : Json := .number (.ofNat n)

def ofInt (n : Int) : Json := .number (.ofInt n)

def ofString (s : String) : Json := .text (some s)

/-- An object with named members. -/
def ofMembers (members : List (String × Json)) : Json :=
  .object (members.map fun (k, v) => (some k, v))

end Json

end Demarcation
