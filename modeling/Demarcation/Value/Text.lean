/-
The two texts of a value: a plain one for people, and one that names the kind of every part.
-/
import Demarcation.Decimal.Binary
import Demarcation.Text.Quoted
import Demarcation.Text.Record
import Demarcation.Value

namespace Demarcation.Value

open Demarcation.Text Demarcation.Decimal

mutual

/-- The plain text: strings between single quotes, bytes by their number. -/
def display : Value → String
  | null => "null"
  | boolean b => truth b
  | int n => toString n.toInt
  | float x => (Binary.ofFloat x).plain
  | text s => "'" ++ s ++ "'"
  | bytes bs => "<" ++ toString bs.length ++ " bytes>"
  | list items => listing (displayItems items)

def displayItems : List Value → List String
  | [] => []
  | v :: vs => display v :: displayItems vs

end

mutual

/-- The text that names the kind of the value and of its items. -/
def inspect : Value → String
  | null => "Null"
  | boolean b => tagged "Boolean" (truth b)
  | int n => tagged "Int" (toString n.toInt)
  | float x => tagged "Float" (Binary.ofFloat x).marked
  | text s => tagged "String" (quoted s)
  | bytes bs => tagged "Bytes" (listing (bs.map fun b => toString b.toNat))
  | list items => tagged "List" (listing (inspectItems items))

def inspectItems : List Value → List String
  | [] => []
  | v :: vs => inspect v :: inspectItems vs

end

end Demarcation.Value
