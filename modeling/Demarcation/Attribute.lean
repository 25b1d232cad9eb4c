/-
Which transaction an operation gets, and which of its failures roll it back.
-/
import Demarcation.Definition.Text
import Demarcation.Operation

namespace Demarcation

/-- What happens to the transaction when a failure is recognized. -/
inductive RollbackRule
  | rollbackOn (m : ErrorMatcher)
  | commitOn (m : ErrorMatcher)

namespace RollbackRule

def matcher : RollbackRule → ErrorMatcher
  | rollbackOn m => m
  | commitOn m => m

def rollsBack : RollbackRule → Bool
  | rollbackOn _ => true
  | commitOn _ => false

def text (r : RollbackRule) : String :=
  (if r.rollsBack then "-" else "+") ++ r.matcher.description

end RollbackRule

/-- A definition and the rules that decide about failures, in order. -/
structure Attribute where
  definition : Definition := {}
  rules : List RollbackRule := []

namespace Attribute

/-- The first rule that recognizes the failure decides; without one it rolls back. -/
def rollsBackOn (a : Attribute) (f : Failure) : Bool :=
  ((a.rules.find? fun r => r.matcher.accepts f).map RollbackRule.rollsBack).getD true

def text (a : Attribute) : String :=
  a.definition.text ++ String.join (a.rules.map fun r => "," ++ r.text)

end Attribute

/-- Decides which operations are transactional, and how. -/
abbrev AttributeSource := Operation → Option Attribute

/-- The same attribute for every operation. -/
def AttributeSource.fixed (a : Attribute) : AttributeSource := fun _ => some a

end Demarcation
