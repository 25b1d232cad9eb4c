/-
What a call asks of the transaction around it.
-/
import Demarcation.Duration

namespace Demarcation

/-- How a call relates to a transaction that may already be active in its context. -/
inductive Propagation
  /-- Join the current transaction, or begin one if there is none. -/
  | required
  /-- Join the current transaction, or run without one. -/
  | supports
  /-- Join the current transaction; fail if there is none. -/
  | mandatory
  /-- Suspend the current transaction, if any, and begin an independent one. -/
  | requiresNew
  /-- Suspend the current transaction, if any, and run without one. -/
  | notSupported
  /-- Run without a transaction; fail if one is active. -/
  | never
  /-- Run inside a savepoint of the current transaction, or begin one if there is none. -/
  | nested
deriving DecidableEq, Repr, Inhabited

namespace Propagation

def all : List Propagation :=
  [required, supports, mandatory, requiresNew, notSupported, never, nested]

def text : Propagation → String
  | required => "REQUIRED"
  | supports => "SUPPORTS"
  | mandatory => "MANDATORY"
  | requiresNew => "REQUIRES_NEW"
  | notSupported => "NOT_SUPPORTED"
  | never => "NEVER"
  | nested => "NESTED"

def named? (s : String) : Option Propagation := all.find? fun p => p.text == s

end Propagation

/-- How far a transaction is kept from the others that run beside it. -/
inductive Isolation
  /-- Whatever the backend uses by default. -/
  | unspecified
  | readUncommitted
  | readCommitted
  | repeatableRead
  | serializable
deriving DecidableEq, Repr, Inhabited

namespace Isolation

def all : List Isolation :=
  [unspecified, readUncommitted, readCommitted, repeatableRead, serializable]

def text : Isolation → String
  | unspecified => "DEFAULT"
  | readUncommitted => "READ_UNCOMMITTED"
  | readCommitted => "READ_COMMITTED"
  | repeatableRead => "REPEATABLE_READ"
  | serializable => "SERIALIZABLE"

/-- The name in the texts of records. -/
def inspect : Isolation → String
  | unspecified => "Default"
  | readUncommitted => "ReadUncommitted"
  | readCommitted => "ReadCommitted"
  | repeatableRead => "RepeatableRead"
  | serializable => "Serializable"

def named? (s : String) : Option Isolation := all.find? fun i => i.text == s

end Isolation

/-- How long a transaction may take. -/
inductive Timeout
  /-- The manager's default timeout, if it has one. -/
  | unspecified
  | after (d : Duration)
deriving DecidableEq, Repr, Inhabited

namespace Timeout

def duration? : Timeout → Option Duration
  | unspecified => none
  | after d => some d

def isUnspecified : Timeout → Bool
  | unspecified => true
  | after _ => false

end Timeout

/-- The transaction that a call needs: by default joined or begun, read-write and unnamed. -/
structure Definition where
  propagation : Propagation := .required
  isolation : Isolation := .unspecified
  timeout : Timeout := .unspecified
  readOnly : Bool := false
  name : Option String := none
deriving DecidableEq, Repr, Inhabited

/-- The definition with a name; its own comes first. -/
def Definition.withName (d : Definition) (name : String) : Definition :=
  { d with name := d.name.or (some name) }

end Demarcation
