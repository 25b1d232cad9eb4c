/-
A call of an operation on its way through the steps wrapped around it: what is fixed for the whole
call, and what every step can read and change.
-/
import Demarcation.Identity
import Demarcation.Operation
import Demarcation.Text.Quoted
import Demarcation.Value.Text

namespace Demarcation

/-- The result of a call. -/
abbrev Outcome (τ : Type) := Except Failure τ

/-- What is fixed for a whole call. -/
structure Call where
  operation : Operation
  /-- What the operation is invoked on, if it is not a free-standing one. -/
  receiver : Option Value := none
  /-- The context that the call runs in. -/
  context : ContextIndex := 0

/-- What the steps of a call can read and change: the arguments, and the world around the call. -/
structure Scope (ω : Type) where
  arguments : List Value
  world : ω

/-- A call under way: the step to enter next, and the scope. -/
structure Invocation (ω : Type) where
  position : Nat
  scope : Scope ω

namespace Invocation

variable {ω : Type}

/-- The text of a call under way in a context, with so many steps around the operation. -/
def inspect (i : Invocation ω) (call : Call) (context : ContextId) (steps : Nat) : String :=
  Text.record "Invocation"
    [("operation", Text.quoted call.operation.name),
      ("arguments", Text.listing (i.scope.arguments.map Value.inspect)),
      ("context", context.inspect), ("position", toString i.position),
      ("interceptors", toString steps)]

end Invocation

end Demarcation
