/-
Operations that calls run, and the errors that belong to their contract.
-/
import Demarcation.Failure
import Demarcation.Text.Quoted
import Demarcation.Text.Search

namespace Demarcation

/-- Recognizes a class of failures. -/
structure ErrorMatcher where
  description : String
  accepts : Failure → Bool

/-- The types of errors that a matcher can ask for. -/
inductive ErrorType
  | foreign (name : String)
  | storage
  | transaction
  | dataAccess
deriving DecidableEq, Repr

namespace ErrorType

def name : ErrorType → String
  | foreign name => name
  | storage => "Storage"
  | transaction => "Transaction"
  | dataAccess => "DataAccess"

/-- Whether a failure itself, not its cause, is of the type. -/
def includes : ErrorType → Failure → Bool
  | foreign name, .foreign t _ _ => t == name
  | storage, .storage _ => true
  | transaction, .transaction _ => true
  | dataAccess, .dataAccess _ => true
  | _, _ => false

end ErrorType

namespace ErrorMatcher

/-- The failures of a type. -/
def ofType (t : ErrorType) : ErrorMatcher := ⟨t.name, t.includes⟩

/-- The failures whose text contains `part`. -/
def containing (part description : String) : ErrorMatcher :=
  ⟨description, fun f => Text.occursIn part.toList f.message.toList⟩

def inspect (m : ErrorMatcher) : String := Text.tagged "ErrorMatcher" (Text.quoted m.description)

end ErrorMatcher

/-- An operation and the errors it may answer as part of its contract. -/
structure Operation where
  name : String
  declared : List ErrorMatcher := []

/-- Whether a failure belongs to the contract. -/
def Operation.declares (o : Operation) (f : Failure) : Bool := o.declared.any fun m => m.accepts f

end Demarcation
