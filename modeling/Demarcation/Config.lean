/-
What a transaction manager may be told to do differently, and what a backend may lack.
-/
import Demarcation.Definition.Json
import Demarcation.Text.Record

namespace Demarcation

/-- Features of a backend beyond plain begin, commit and rollback. -/
structure Capabilities where
  savepoints : Bool := false
  isolation : Bool := false
  timeout : Bool := false
deriving DecidableEq, Repr, Inhabited

namespace Capabilities

def all : Capabilities := ⟨true, true, true⟩

def none : Capabilities := ⟨false, false, false⟩

def toJson (c : Capabilities) : Json :=
  .ofMembers [("savepoints", .bool c.savepoints), ("isolation", .bool c.isolation),
    ("timeout", .bool c.timeout)]

def ofJson? (j : Json) : Option Capabilities := do
  let field ← j.fields? ["savepoints", "isolation", "timeout"]
  let flag := fun name => Json.field? Json.truth? false (field name)
  pure ⟨← flag "savepoints", ← flag "isolation", ← flag "timeout"⟩

def inspect (c : Capabilities) : String :=
  Text.record "BackendCapabilities" [("savepoints", Text.truth c.savepoints),
    ("isolation", Text.truth c.isolation), ("timeout", Text.truth c.timeout)]

end Capabilities

/-- The policy of a transaction manager. -/
structure ManagerConfig where
  /-- The owner's commit fails if a participant marked the transaction rollback-only; otherwise
  the rollback is silent. -/
  failOnUnexpectedRollback : Bool := true
  /-- A participant's commit fails as soon as the transaction is known to be rollback-only,
  instead of leaving it to the owner. -/
  failEarlyOnGlobalRollbackOnly : Bool := false
  /-- A participant's rollback marks the whole transaction rollback-only. -/
  globalRollbackOnParticipationFailure : Bool := true
  /-- A failed native commit is followed by a native rollback. -/
  rollbackOnCommitFailure : Bool := false
  /-- A joining scope must be compatible with the running transaction. -/
  validateExistingTransaction : Bool := false
  nestedTransactionAllowed : Bool := true
  /-- The timeout of definitions that give none. -/
  defaultTimeout : Option Duration := none
deriving DecidableEq, Repr, Inhabited

namespace ManagerConfig

/-- The names of the fields, in their order. -/
def fieldNames : List String :=
  ["fail_on_unexpected_rollback", "fail_early_on_global_rollback_only",
    "global_rollback_on_participation_failure", "rollback_on_commit_failure",
    "validate_existing_transaction", "nested_transaction_allowed", "default_timeout"]

/-- The truth values among the fields, in their order. -/
def flags (c : ManagerConfig) : List Bool :=
  [c.failOnUnexpectedRollback, c.failEarlyOnGlobalRollbackOnly,
    c.globalRollbackOnParticipationFailure, c.rollbackOnCommitFailure,
    c.validateExistingTransaction, c.nestedTransactionAllowed]

def toJson (c : ManagerConfig) : Json :=
  .ofMembers (fieldNames.zip (c.flags.map .bool ++ [c.defaultTimeout.elim .null Duration.toJson]))

/-- A configuration; a missing field has its default. -/
def ofJson? (j : Json) : Option ManagerConfig := do
  let field ← j.fields? fieldNames
  let flag := fun (name : String) (default : Bool) => Json.field? Json.truth? default (field name)
  pure
    { failOnUnexpectedRollback := ← flag "fail_on_unexpected_rollback" true
      failEarlyOnGlobalRollbackOnly := ← flag "fail_early_on_global_rollback_only" false
      globalRollbackOnParticipationFailure := ← flag "global_rollback_on_participation_failure" true
      rollbackOnCommitFailure := ← flag "rollback_on_commit_failure" false
      validateExistingTransaction := ← flag "validate_existing_transaction" false
      nestedTransactionAllowed := ← flag "nested_transaction_allowed" true
      defaultTimeout :=
        ← Json.field? (Json.nullable? Duration.ofJson?) Option.none (field "default_timeout") }

/-- The configuration that a text holds. -/
def parse? (s : String) : Option ManagerConfig := (Json.parse? s).bind ofJson?

def inspect (c : ManagerConfig) : String :=
  Text.record "TransactionManagerConfig" (fieldNames.zip
    (c.flags.map Text.truth ++ [Text.optional (c.defaultTimeout.map Duration.text)]))

end ManagerConfig

end Demarcation
