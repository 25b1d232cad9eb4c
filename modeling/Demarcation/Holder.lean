/-
A holder wraps the native resource of one transaction while it is bound to a context: the marks
that all scopes of the transaction share, how many scopes use it, and its deadline.
-/
import Demarcation.Definition
import Demarcation.Registry

namespace Demarcation

/-- A reading of the clock, in nanoseconds. Readings are unbounded, so that every timeout has a deadline. -/
abbrev Instant := Nat

structure Holder (ρ : Type) where
  kind : HolderKind
  resource : ρ
  isolation : Isolation := .unspecified
  readOnly : Bool := false
  synchronized : Bool := false
  rollbackOnly : Bool := false
  suspended : Bool := false
  /-- A cleared holder is void. -/
  cleared : Bool := false
  references : Nat := 0
  deadline : Option Instant := none
deriving Repr

namespace Holder

variable {ρ : Type}

def setSynchronized (h : Holder ρ) (on : Bool) : Holder ρ := { h with synchronized := on }

/-- Marks the transaction rollback-only, for all its scopes. -/
def setRollbackOnly (h : Holder ρ) : Holder ρ := { h with rollbackOnly := true }

/-- Takes the mark back: the work that it was for has been undone. -/
def resetRollbackOnly (h : Holder ρ) : Holder ρ := { h with rollbackOnly := false }

def setSuspended (h : Holder ρ) (on : Bool) : Holder ρ := { h with suspended := on }

/-- The transaction may take `timeout` from `now` on. -/
def setTimeout (h : Holder ρ) (now : Instant) (timeout : Duration) : Holder ρ :=
  { h with deadline := some (now + timeout.toNanos) }

/-- The time left before the deadline, if there is one. Once the deadline is reached, this fails
and marks the transaction rollback-only. -/
def timeToLive (h : Holder ρ) (now : Instant) :
    Except TransactionError (Option Duration) × Holder ρ :=
  match h.deadline with
  | none => (.ok none, h)
  | some deadline =>
    if deadline ≤ now then (.error (.timedOut (.ofNanos (now - deadline))), h.setRollbackOnly)
    else (.ok (some (.ofNanos (deadline - now))), h)

/-- One more scope uses the resource. -/
def requested (h : Holder ρ) : Holder ρ := { h with references := h.references + 1 }

/-- One scope less uses the resource; without any, nothing changes. -/
def released (h : Holder ρ) : Holder ρ := { h with references := h.references - 1 }

def isOpen (h : Holder ρ) : Bool := 0 < h.references

/-- Drops all marks and the deadline, and voids the holder. The references stay. -/
def clear (h : Holder ρ) : Holder ρ :=
  { h with
    synchronized := false
    rollbackOnly := false
    suspended := false
    deadline := none
    cleared := true }

/-- Like `clear`, and forgets the references. -/
def reset (h : Holder ρ) : Holder ρ := { h.clear with references := 0 }

/-- The text of a holder, given that of its resource. -/
def inspect (h : Holder ρ) (resource : String) : String :=
  Text.record "ResourceHolder" [("resource", resource), ("isolation", h.isolation.inspect),
    ("read_only", Text.truth h.readOnly), ("synchronized", Text.truth h.synchronized),
    ("rollback_only", Text.truth h.rollbackOnly), ("suspended", Text.truth h.suspended),
    ("cleared", Text.truth h.cleared), ("references", toString h.references)]

end Holder

end Demarcation
