/-
The status of one transactional scope, from the moment it was opened.
-/
import Demarcation.Definition.Text
import Demarcation.Text.Quoted
import Demarcation.Text.Record
import Demarcation.Json.Printer
import Demarcation.Json.Reader

namespace Demarcation

/-- Names a holder of a session. -/
abbrev HolderId := Nat

/-- Names a status of a session. -/
abbrev StatusId := Nat

/-- Where a scope's transaction is, or how the scope ended. -/
inductive TransactionState
  /-- The scope runs without a transaction. -/
  | noTransaction
  | active
  /-- The transaction is detached from its context while an inner scope runs. -/
  | suspended
  | committed
  | rolledBack
  /-- Completion failed half-way; what became of the native transaction is not known. -/
  | unknown
deriving DecidableEq, Repr, Inhabited

namespace TransactionState

def all : List TransactionState :=
  [noTransaction, active, suspended, committed, rolledBack, unknown]

def text : TransactionState → String
  | noTransaction => "NoTransaction"
  | active => "Active"
  | suspended => "Suspended"
  | committed => "Committed"
  | rolledBack => "RolledBack"
  | unknown => "Unknown"

def toJson (s : TransactionState) : Json := .ofString s.text

def ofJson? (j : Json) : Option TransactionState :=
  j.plainChoice? fun name => all.find? fun s => s.text == name

end TransactionState

structure Status (ς : Type) where
  definition : Definition
  /-- The holder of the scope's transaction. It stays after the scope is completed. -/
  holder : Option HolderId := none
  /-- The scope began the native transaction and therefore completes it. -/
  newTransaction : Bool := false
  /-- The savepoint that a nested scope took, until the scope is completed. -/
  savepoint : Option ς := none
  /-- The holder of the transaction that the scope detached, until it is attached again. -/
  suspended : Option HolderId := none
  /-- Rollback was requested on this status. -/
  rollbackOnly : Bool := false
  /-- How the scope ended. -/
  completion : Option TransactionState := none
  /-- Somebody still holds the status. -/
  held : Bool := true
deriving Repr

namespace Status

variable {ς : Type}

def isCompleted (s : Status ς) : Bool := s.completion.isSome

end Status

end Demarcation
