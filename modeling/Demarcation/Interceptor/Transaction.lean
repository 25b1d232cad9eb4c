/-
The step that runs the rest of the chain in a transactional scope.
-/
import Demarcation.Attribute
import Demarcation.Invocation.Chain
import Demarcation.Manager

namespace Demarcation.Interceptor

variable {ω τ σ ρ ς : Type}

/-- Completes the scope of a call that ended with `outcome`: a result is committed, and a failure
rolls back unless the attribute says otherwise. Nobody holds the status afterwards. -/
def completeFor (m : Manager σ ρ ς) (c : ContextIndex) (t : StatusId) (a : Attribute)
    (outcome : Outcome τ) : Session.Step σ ρ ς (Except TransactionError Unit) := do
  let completed ← match outcome with
    | .ok _ => (m.commit c t).run
    | .error f => if a.rollsBackOn f then (m.rollback c t).run else (m.commit c t).run
  modify fun s => s.forget t
  pure completed

/-- What a call answers when its scope is completed: an error of the commit replaces the result, but
never a failure of the call itself. -/
def answer (outcome : Outcome τ) (completed : Except TransactionError Unit) : Outcome τ :=
  match outcome, completed with
  | .ok _, .error e => .error (.transaction e)
  | outcome, _ => outcome

/-- Runs the rest of the chain in the scope that the source gives to the operation; an operation
that the source does not know runs without one. The scope is named after the operation unless it
has a name. -/
def transactional (slot : Slot ω (Session σ ρ ς)) (m : Manager σ ρ ς)
    (source : AttributeSource) : Interceptor ω τ where
  name := "transaction"
  around call :=
    match source call.operation with
    | none => .proceeding
    | some a => do
      let d := a.definition.withName call.operation.name
      match ← Advice.within slot (m.getTransaction call.context d) with
      | .error e => pure (.error (.transaction e))
      | .ok t =>
        let outcome ← Advice.proceeding
        let completed ← Advice.within slot (completeFor m call.context t a outcome)
        pure (answer outcome completed)

end Demarcation.Interceptor
