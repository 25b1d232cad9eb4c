/-
One value out of the results of a query.
-/
import Demarcation.Failure

namespace Demarcation.QueryResult

variable {α : Type}

/-- The only result, if there is one; more than one are an error. -/
def single : List α → Except DataAccessError (Option α)
  | [] => .ok none
  | [a] => .ok (some a)
  | results => .error (.incorrectResultSize 1 results.length)

/-- A result where none is an error too. -/
def required : Except DataAccessError (Option α) → Except DataAccessError α
  | .ok (some a) => .ok a
  | .ok none => .error (.emptyResult 1)
  | .error e => .error e

/-- The value that all results are equal to. -/
def unique [BEq α] : List α → Except DataAccessError (Option α)
  | [] => .ok none
  | a :: rest =>
    if rest.all (· == a) then .ok (some a) else .error (.incorrectResultSize 1 (rest.length + 1))

def requiredSingle (results : List α) : Except DataAccessError α := required (single results)

def requiredUnique [BEq α] (results : List α) : Except DataAccessError α :=
  required (unique results)

end Demarcation.QueryResult
