/-
What readers of JSON trees accept for the usual kinds of values: truth values, texts, whole
numbers, records with named fields, and choices among named cases.
-/
import Demarcation.Json.Parser

namespace Demarcation.Json

open Demarcation.Text

def truth? : Json → Option Bool
  | .bool b => some b
  | _ => none

def string? : Json → Option String
  | .text s => s
  | _ => none

/-- The value of a number written with digits only. A negative zero is no whole number. -/
def Number.integer? (n : Number) : Option Int :=
  match n.fraction, n.exponent with
  | none, none => do
    let v ← digits? n.whole
    if n.negative then if v = 0 then none else some (-v) else some v
  | _, _ => none

/-- A whole number below `bound` that is not negative. -/
def natural? (bound : Nat) : Json → Option Nat
  | .number n => do
    let v ← n.integer?
    if 0 ≤ v ∧ v.toNat < bound then some v.toNat else none
  | _ => none

/-- An unsigned sixty-four-bit number. -/
def word? (j : Json) : Option UInt64 := (j.natural? wordBound).map Nat.toUInt64

/-- The bound of the signed sixty-four-bit numbers: the sixty-third power of two. -/
def signedBound : Int := 9223372036854775808

/-- A signed sixty-four-bit number. -/
def integer? : Json → Option Int64
  | .number n => do
    let v ← n.integer?
    if -signedBound ≤ v ∧ v < signedBound then some (Int64.ofInt v) else none
  | _ => none

/-- Anything, or nothing where it is null. -/
def nullable? {α : Type} (read : Json → Option α) : Json → Option (Option α)
  | .null => some none
  | j => (read j).map some

/-- How often a name occurs among the members of an object. -/
def countName (members : List (Literal × Json)) (name : String) : Nat :=
  members.countP fun m => m.1 == some name

/-- The fields of a record, given as an object, with other members ignored and no field twice, or
as an array in the order of `names`, with any number of them missing at the end. The answer finds
a field by its name. -/
def fields? (names : List String) : Json → Option (String → Option Json)
  | .object members =>
    if members.any (fun m => m.1.isNone) || names.any (fun n => 1 < countName members n) then none
    else some fun name => (members.find? fun m => m.1 == some name).map Prod.snd
  | .array items =>
    if names.length < items.length then none
    else some fun name => ((names.zip items).find? fun p => p.1 == name).map Prod.snd
  | _ => none

/-- A field that may be missing. -/
def field? {α : Type} (read : Json → Option α) (default : α) : Option Json → Option α
  | none => some default
  | some j => read j

/-- Whether an object has only the named members. -/
def onlyNames (names : List String) : Json → Bool
  | .object members => members.all fun m => names.any fun n => m.1 == some n
  | _ => true

/-- A case with the value that comes with it, if one does: a text names a case alone, an object
with one member a case and its value. -/
def choice? : Json → Option (String × Option Json)
  | .text (some s) => some (s, none)
  | .object [(some s, j)] => some (s, some j)
  | _ => none

/-- A case that comes without a value. -/
def plainChoice? {α : Type} (named : String → Option α) (j : Json) : Option α := do
  match ← j.choice? with
  | (s, none) => named s
  | (s, some .null) => named s
  | _ => none

end Demarcation.Json
