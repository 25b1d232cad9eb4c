/-
The committed entries of a store: values by keys, in the order of the keys.
-/
import Demarcation.Value

namespace Demarcation

/-- Entries by key, in strictly increasing order of the keys. -/
abbrev Entries := List (String × Value)

namespace Entries

/-- The value of a key. -/
def value? : Entries → String → Option Value
  | [], _ => none
  | (k, v) :: es, key => if k = key then some v else value? es key

/-- The entries with a new value for a key. -/
def insert (key : String) (value : Value) : Entries → Entries
  | [] => [(key, value)]
  | (k, v) :: es =>
    if key < k then (key, value) :: (k, v) :: es
    else if k = key then (key, value) :: es
    else (k, v) :: insert key value es

/-- The entries without a key. -/
def erase (key : String) (es : Entries) : Entries := es.filter fun e => e.1 != key

/-- The entries whose keys begin with `start`: those from the first key that is not below `start`
up to one that does not begin with it. -/
def startingWith (start : String) (es : Entries) : Entries :=
  (es.dropWhile fun e => e.1 < start).takeWhile fun e => start.toList.isPrefixOf e.1.toList

end Entries

/-- A change of one entry. -/
inductive Write
  | put (key : String) (value : Value)
  | delete (key : String)

namespace Write

def key : Write → String
  | put key _ => key
  | delete key => key

/-- The value that the change gives to its key. -/
def value? : Write → Option Value
  | put _ value => some value
  | delete _ => none

end Write

namespace Entries

/-- The entries after a change. -/
def apply (es : Entries) : Write → Entries
  | .put key value => es.insert key value
  | .delete key => es.erase key

/-- The entries after changes, in order. -/
def applyAll (es : Entries) (log : List Write) : Entries := log.foldl apply es

end Entries

end Demarcation
