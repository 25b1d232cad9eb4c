/-
Everything that can go wrong, and its wording. Four families of errors have causes of their own
(binding holders, demarcating transactions, storing data, and the unified data-access errors);
`Failure` is an error of any family, or of the code that runs inside a transaction, as it travels
from a call to its caller.
-/
import Demarcation.Duration
import Demarcation.Identity
import Demarcation.Primitive

namespace Demarcation

/-! ## Bindings -/

/-- Why a holder could not be bound or found. -/
inductive RegistryError
  | alreadyBound (key : ResourceKey) (context : ContextId)
  | notBound (key : ResourceKey) (context : ContextId)
  | holderTypeMismatch (key : ResourceKey) (context : ContextId) (expected : String)
deriving DecidableEq, Repr

def RegistryError.message : RegistryError → String
  | alreadyBound key context =>
    "a resource is already bound for " ++ key.text ++ " in " ++ context.text
  | notBound key context => "no resource is bound for " ++ key.text ++ " in " ++ context.text
  | holderTypeMismatch key context expected =>
    "resource bound for " ++ key.text ++ " in " ++ context.text ++ " is not a " ++ expected

/-! ## Transactions -/

/-- Why a transaction could not be begun, joined or completed. `φ` are the failures that an
error may come from. -/
inductive TransactionErrorFrom (φ : Type)
  | configuration (text : String)
  | usage (text : String)
  | illegalState (text : String)
  | creation (text : String) (source : Option φ)
  | system (text : String) (source : Option φ)
  | unexpectedRollback (text : String)
  | timedOut (exceededBy : Duration)
  | registry (e : RegistryError)

namespace TransactionErrorFrom

variable {φ : Type}

def message : TransactionErrorFrom φ → String
  | configuration text => "configuration error: " ++ text
  | usage text => "illegal transaction usage: " ++ text
  | illegalState text => "illegal transaction state: " ++ text
  | creation text _ => "could not create transaction: " ++ text
  | system text _ => "transaction system failure: " ++ text
  | unexpectedRollback text => "unexpected rollback: " ++ text
  | timedOut exceededBy =>
    "transaction timed out: deadline exceeded by " ++ exceededBy.text
  | registry e => e.message

/-- The failure that the error comes from. An error of the registry stands for itself. -/
def source? : TransactionErrorFrom φ → Option φ
  | creation _ source => source
  | system _ source => source
  | _ => none

end TransactionErrorFrom

/-! ## Stores -/

/-- Why a store refused an operation. -/
inductive StorageErrorFrom (φ : Type)
  | duplicateKey (key : String)
  | keyNotFound (key : String)
  | readOnly (connection : UInt64)
  | closed (connection : UInt64)
  | foreignSavepoint (savepoint connection : UInt64)
  | invalidSavepoint (savepoint : UInt64)
  | busy (store : String)
  | injected (p : Primitive)
  | transaction (e : TransactionErrorFrom φ)

def StorageErrorFrom.message {φ : Type} : StorageErrorFrom φ → String
  | duplicateKey key => "key " ++ key ++ " already exists"
  | keyNotFound key => "key " ++ key ++ " not found"
  | readOnly connection => "connection " ++ toString connection.toNat ++ " is read-only"
  | closed connection => "connection " ++ toString connection.toNat ++ " is closed"
  | foreignSavepoint savepoint connection =>
    "savepoint " ++ toString savepoint.toNat ++ " does not belong to connection " ++
      toString connection.toNat
  | invalidSavepoint savepoint =>
    "savepoint " ++ toString savepoint.toNat ++ " is no longer valid"
  | busy store => "store " ++ store ++ " is busy"
  | injected p => "injected " ++ p.text ++ " failure"
  | transaction e => "transaction error: " ++ e.message

/-! ## Data access -/

/-- The category of a data-access error, whatever backend raised it. -/
inductive DataAccessKind
  /-- A write would violate a key or unique constraint. -/
  | duplicateKey
  /-- Any other integrity violation. -/
  | dataIntegrityViolation
  /-- The resource was used incorrectly. -/
  | invalidResourceUsage
  /-- The operation may succeed if simply tried again. -/
  | transient
  /-- The operation may succeed if tried again after a recovery step. -/
  | recoverable
  /-- Only releasing the resources failed. -/
  | cleanupFailure
  /-- A query had another number of results than expected. -/
  | incorrectResultSize (expected actual : Nat)
  /-- A query expected results and had none. -/
  | emptyResult (expected : Nat)
  /-- A result could not be converted. -/
  | typeMismatch
  /-- Nothing more specific is known. -/
  | uncategorized
deriving DecidableEq, Repr, Inhabited

def DataAccessKind.text : DataAccessKind → String
  | duplicateKey => "duplicate key"
  | dataIntegrityViolation => "data integrity violation"
  | invalidResourceUsage => "invalid resource usage"
  | transient => "transient failure"
  | recoverable => "recoverable failure"
  | cleanupFailure => "cleanup failure"
  | incorrectResultSize expected actual =>
    "incorrect result size: expected " ++ toString expected ++ ", actual " ++ toString actual
  | emptyResult expected => "incorrect result size: expected " ++ toString expected ++ ", actual 0"
  | typeMismatch => "type mismatch"
  | uncategorized => "uncategorized data access failure"

/-- A unified data-access error, with the failure it was translated from. -/
structure DataAccessErrorFrom (φ : Type) where
  kind : DataAccessKind
  text : String
  source : Option φ

namespace DataAccessErrorFrom

variable {φ : Type}

def message (e : DataAccessErrorFrom φ) : String := e.kind.text ++ ": " ++ e.text

/-- A query that had another number of results than one expects. -/
def incorrectResultSize (expected actual : Nat) : DataAccessErrorFrom φ :=
  ⟨.incorrectResultSize expected actual, "query did not return a unique result", none⟩

/-- A query without results. -/
def emptyResult (expected : Nat) : DataAccessErrorFrom φ :=
  ⟨.emptyResult expected, "query returned no result", none⟩

/-- Trying the same operation again may succeed. -/
def isTransient (e : DataAccessErrorFrom φ) : Bool := e.kind == .transient

/-- Trying again after a recovery step may succeed. -/
def isRecoverable (e : DataAccessErrorFrom φ) : Bool :=
  e.kind == .transient || e.kind == .recoverable

end DataAccessErrorFrom

/-! ## Failures -/

/-- An error of any family. -/
inductive Failure
  /-- An error of the code inside a transaction: the name of its type, its text and its cause. -/
  | foreign (type text : String) (cause : Option Failure)
  /-- An error that is only a text. -/
  | note (text : String)
  /-- A native operation that failed for reasons of its own. -/
  | native (p : Primitive)
  /-- A collaborator is missing. -/
  | configuration (text : String)
  /-- The backend has no savepoints. -/
  | savepointsUnsupported
  | registry (e : RegistryError)
  | transaction (e : TransactionErrorFrom Failure)
  | storage (e : StorageErrorFrom Failure)
  | dataAccess (e : DataAccessErrorFrom Failure)

instance : Inhabited Failure := ⟨.savepointsUnsupported⟩

instance {φ : Type} : Inhabited (TransactionErrorFrom φ) := ⟨.usage ""⟩

instance {φ : Type} : Inhabited (StorageErrorFrom φ) := ⟨.keyNotFound ""⟩

instance {φ : Type} : Inhabited (DataAccessErrorFrom φ) := ⟨⟨.uncategorized, "", none⟩⟩

abbrev TransactionError := TransactionErrorFrom Failure

abbrev StorageError := StorageErrorFrom Failure

abbrev DataAccessError := DataAccessErrorFrom Failure

namespace Failure

def message : Failure → String
  | foreign _ text _ => text
  | note text => text
  | native p => "native " ++ p.text ++ " failed"
  | configuration text => "configuration error: " ++ text
  | savepointsUnsupported => "backend does not support savepoints"
  | registry e => e.message
  | transaction e => e.message
  | storage e => e.message
  | dataAccess e => e.message

/-- The failure behind this one. -/
def cause? : Failure → Option Failure
  | foreign _ _ cause => cause
  | transaction e => e.source?
  | storage (.transaction e) => some (.transaction e)
  | dataAccess e => e.source
  | _ => none

/-- Whether this is an error of the named type of foreign errors. -/
def isForeign (type : String) : Failure → Bool
  | foreign t _ _ => t == type
  | _ => false

def isStorage : Failure → Bool
  | storage _ => true
  | _ => false

end Failure

end Demarcation
