/-
Running a piece of work in a transactional scope of a fixed definition.
-/
import Demarcation.Manager

namespace Demarcation

structure Template (σ ρ ς : Type) where
  manager : Manager σ ρ ς
  definition : Definition := {}

namespace Template

variable {σ ρ ς ω α : Type}

/-- Completes the scope of work that ended with `outcome`: a result is committed, a failure rolls
back. Nobody holds the status afterwards. -/
def complete (m : Manager σ ρ ς) (c : ContextIndex) (t : StatusId) (outcome : Except Failure α) :
    Session.Step σ ρ ς (Except Failure α) := do
  let answer ← match outcome with
    | .ok a => do
      let committed ← (m.commit c t).run
      pure (match committed with
        | .ok () => .ok a
        | .error e => .error (.transaction e))
    | .error f => do
      let _ ← (m.rollback c t).run
      pure (.error f)
  modify fun s => s.forget t
  pure answer

/-- Runs work in a scope. Work that cannot have its scope is not run; a failure of the work is
answered whatever the rollback does, and a commit that fails is answered in place of the
result. -/
def execute (template : Template σ ρ ς) (slot : Slot ω (Session σ ρ ς)) (c : ContextIndex)
    (work : StatusId → StateM ω (Except Failure α)) : StateM ω (Except Failure α) := do
  let m := template.manager
  match ← slot.run (m.getTransaction c template.definition) with
  | .error e => pure (.error (.transaction e))
  | .ok t =>
    let outcome ← work t
    slot.run (complete m c t outcome)

end Template

end Demarcation
