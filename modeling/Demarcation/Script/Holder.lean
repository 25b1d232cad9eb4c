/-
Scripts on a single holder.
-/
import Demarcation.Holder

namespace Demarcation.Script

inductive HolderStep
  | markRollbackOnly
  | synchronized (on : Bool)
  | requested
  | released
  | clear
  | reset
  | timeout (d : Duration)
  | view
  | timeToLive

/-- What a step on a holder answers. -/
inductive HolderAnswer
  | nothing
  /-- Whether the time is limited, or why there is none left. -/
  | timeToLive (limited : Except TransactionError Bool)

namespace HolderStep

variable {ρ : Type}

def run (step : HolderStep) (now : Instant) (h : Holder ρ) : HolderAnswer × Holder ρ :=
  match step with
  | markRollbackOnly => (.nothing, h.setRollbackOnly)
  | synchronized on => (.nothing, h.setSynchronized on)
  | requested => (.nothing, h.requested)
  | released => (.nothing, h.released)
  | clear => (.nothing, h.clear)
  | reset => (.nothing, h.reset)
  | timeout d => (.nothing, h.setTimeout now d)
  | view => (.nothing, h)
  | timeToLive =>
    let (r, h) := h.timeToLive now
    (.timeToLive (r.map Option.isSome), h)

end HolderStep

/-- What can be seen of a holder. -/
structure HolderSummary where
  isolation : Isolation
  readOnly : Bool
  synchronized : Bool
  rollbackOnly : Bool
  suspended : Bool
  cleared : Bool
  references : Nat
  isOpen : Bool
  hasDeadline : Bool
deriving DecidableEq, Repr

def HolderSummary.of {ρ : Type} (h : Holder ρ) : HolderSummary :=
  { isolation := h.isolation
    readOnly := h.readOnly
    synchronized := h.synchronized
    rollbackOnly := h.rollbackOnly
    suspended := h.suspended
    cleared := h.cleared
    references := h.references
    isOpen := h.isOpen
    hasDeadline := h.deadline.isSome }

/-- The answers of steps on a holder, each with what can be seen after it, and the holder at the
end. -/
def runHolder {ρ : Type} (now : Instant) :
    List HolderStep → Holder ρ → List (HolderAnswer × HolderSummary) × Holder ρ
  | [], h => ([], h)
  | step :: steps, h =>
    let (a, h) := step.run now h
    let (rows, last) := runHolder now steps h
    ((a, .of h) :: rows, last)

end Demarcation.Script
