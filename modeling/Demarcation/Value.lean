/-
The values that calls take and answer, and that stores hold.
-/

namespace Demarcation

/-- A value of a call or of a store's entry. -/
inductive Value
  | null
  | boolean (b : Bool)
  | int (n : Int64)
  | float (x : Float)
  | text (s : String)
  | bytes (bs : List UInt8)
  | list (items : List Value)
deriving Inhabited

namespace Value

def isNull : Value → Bool
  | null => true
  | _ => false

def boolean? : Value → Option Bool
  | boolean b => some b
  | _ => none

def int? : Value → Option Int64
  | int n => some n
  | _ => none

/-- A number; a whole one is rounded to the nearest double-precision number. -/
def float? : Value → Option Float
  | float x => some x
  | int n => some n.toFloat
  | _ => none

def text? : Value → Option String
  | text s => some s
  | _ => none

def bytes? : Value → Option (List UInt8)
  | bytes bs => some bs
  | _ => none

def list? : Value → Option (List Value)
  | list items => some items
  | _ => none

mutual

/-- Equality of values. Numbers compare as numbers: the two zeros are equal, and what is not a
number differs from everything. -/
def same : Value → Value → Bool
  | null, null => true
  | boolean a, boolean b => a == b
  | int a, int b => a == b
  | float a, float b => a == b
  | text a, text b => a == b
  | bytes a, bytes b => a == b
  | list as, list bs => sameItems as bs
  | _, _ => false

/-- Equality item by item. -/
def sameItems : List Value → List Value → Bool
  | [], [] => true
  | a :: as, b :: bs => same a b && sameItems as bs
  | _, _ => false

end

instance : BEq Value := ⟨same⟩

end Value

end Demarcation
