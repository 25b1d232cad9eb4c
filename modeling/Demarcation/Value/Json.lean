/-
Values in JSON texts: a text or a one-member object names the kind of each value. Objects and
arrays nest at most one hundred and twenty-seven deep.
-/
import Demarcation.Json.Printer
import Demarcation.Json.Real
import Demarcation.Value

namespace Demarcation.Value

mutual

def toJson : Value → Json
  | null => .ofString "Null"
  | boolean b => .ofMembers [("Boolean", .bool b)]
  | int n => .ofMembers [("Int", .ofInt n.toInt)]
  | float x => .ofMembers [("Float", .ofFloat x)]
  | text s => .ofMembers [("String", .ofString s)]
  | bytes bs => .ofMembers [("Bytes", .array (bs.map fun b => .ofNat b.toNat))]
  | list items => .ofMembers [("List", .array (toJsonItems items))]

def toJsonItems : List Value → List Json
  | [] => []
  | v :: vs => toJson v :: toJsonItems vs

end

/-- The deepest nesting that is read. -/
def maxDepth : Nat := 127

/-- A kind that holds one value. -/
def ofScalar? (kind : String) (j : Json) : Option Value :=
  if kind = "Null" then if j matches .null then some null else none
  else if kind = "Boolean" then j.truth?.map boolean
  else if kind = "Int" then j.integer?.map int
  else if kind = "Float" then j.real?.map float
  else if kind = "String" then j.string?.map text
  else none

mutual

/-- A value, from a tree that may nest `depth` levels more. -/
def ofJson? (depth : Nat) : Json → Option Value
  | .text (some s) => if s = "Null" then some null else none
  | .object [(some kind, j)] =>
    if depth = 0 then none
    else
      match j with
      | .array items =>
        if depth = 1 then none
        else if kind = "List" then (ofJsonItems? (depth - 2) items).map list
        else if kind = "Bytes" then
          (items.mapM (Json.natural? 256)).map fun bs => bytes (bs.map Nat.toUInt8)
        else none
      | j => ofScalar? kind j
  | _ => none

def ofJsonItems? (depth : Nat) : List Json → Option (List Value)
  | [] => some []
  | j :: js => do pure ((← ofJson? depth j) :: (← ofJsonItems? depth js))

end

/-- The value that a text holds. -/
def parse? (s : String) : Option Value := (Json.parse? s).bind (ofJson? maxDepth)

end Demarcation.Value
