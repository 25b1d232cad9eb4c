/-
Interceptors are the steps wrapped around an operation, and a chain is a list of them. A call goes
down the chain: the position of the call under way says which step is entered next, and behind the
last step comes the operation itself.
-/
import Demarcation.Invocation.Advice

namespace Demarcation

/-- A named step, which may go by what it is wrapped around. -/
structure Interceptor (ω τ : Type) where
  name : String
  around : Call → Advice ω τ (Outcome τ)

abbrev Chain (ω τ : Type) := List (Interceptor ω τ)

/-- The operation behind the last step. -/
abbrev Target (ω τ : Type) := Invocation ω → Outcome τ × Scope ω

namespace Chain

variable {ω τ : Type}

/-- Runs the operation itself. -/
def reach (target : Target ω τ) (i : Invocation ω) : Outcome τ × Invocation ω :=
  let (outcome, scope) := target i
  (outcome, { i with scope })

/-- Enters the step at the position of the call, or the operation when all steps are entered.
Inside a step the position is one further; it is the old one again when the step is left. As each
step is entered from the one before it, `depth` steps can be entered inside one another, and no
more than the chain has. -/
def proceed (chain : Chain ω τ) (call : Call) (target : Target ω τ) :
    (depth : Nat) → Invocation ω → Outcome τ × Invocation ω
  | 0, i => reach target i
  | depth + 1, i =>
    match chain[i.position]? with
    | none => reach target i
    | some step =>
      let (outcome, inner) := (step.around call).run (proceed chain call target depth)
        { i with position := i.position + 1 }
      (outcome, { inner with position := i.position })

/-- Calls an operation behind all steps of a chain, and answers what became of the scope. -/
def execute (chain : Chain ω τ) (call : Call) (target : Target ω τ) (scope : Scope ω) :
    Outcome τ × Scope ω :=
  let (outcome, i) := proceed chain call target chain.length ⟨0, scope⟩
  (outcome, i.scope)

/-- The text of a chain. -/
def inspect (chain : Chain ω τ) : String :=
  Text.listing (chain.map fun step => Text.quoted step.name)

end Chain

end Demarcation
