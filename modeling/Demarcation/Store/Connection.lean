/-
A connection is a session on a store. A transactional one stages its changes in a log until they
are committed; an auto-commit one publishes each change at once.
-/
import Demarcation.Definition
import Demarcation.Store.Entries
import Demarcation.Text.Record

namespace Demarcation

/-- Names a connection of a store, by its place in the order of opening. -/
abbrev ConnectionId := Nat

/-- The number that a connection shows. The numbers start at one, and again at zero behind the
largest one. -/
def ConnectionId.number (c : ConnectionId) : UInt64 := (c + 1).toUInt64

/-- A place in the log of a connection. -/
structure Savepoint where
  id : UInt64
  /-- The number of the connection. -/
  connection : UInt64
  mark : Nat
deriving DecidableEq, Repr, Inhabited

def Savepoint.inspect (sp : Savepoint) : String :=
  Text.record "MemorySavepoint" [("id", toString sp.id.toNat),
    ("connection", toString sp.connection.toNat), ("mark", toString sp.mark)]

structure Connection where
  /-- The number that the connection shows. -/
  id : UInt64
  readOnly : Bool := false
  autoCommit : Bool := false
  isolation : Isolation := .unspecified
  /-- The staged changes, in the order in which they were made. -/
  log : List Write := []
  /-- How many savepoints were taken. -/
  savepoints : UInt64 := 0
  closed : Bool := false

namespace Connection

/-- The last staged change of a key. -/
def staged? (c : Connection) (key : String) : Option Write := c.log.reverse.find? fun w => w.key == key

/-- What the connection sees of a key: its own staged change, or else the committed value. -/
def value? (c : Connection) (committed : Entries) (key : String) : Option Value :=
  match c.staged? key with
  | some w => w.value?
  | none => committed.value? key

/-- What the connection sees of the keys that begin with `start`. -/
def entries (c : Connection) (committed : Entries) (start : String) : Entries :=
  (committed.startingWith start).applyAll
    (c.log.filter fun w => start.toList.isPrefixOf w.key.toList)

/-- How many changes are staged. -/
def pending (c : Connection) : Nat := c.log.length

/-- The next savepoint, at the end of the log. -/
def nextSavepoint (c : Connection) : Savepoint :=
  { id := c.savepoints + 1, connection := c.id, mark := c.log.length }

def inspect (c : Connection) : String :=
  Text.record "MemoryConnection" [("id", toString c.id.toNat),
    ("read_only", Text.truth c.readOnly), ("auto_commit", Text.truth c.autoCommit),
    ("isolation", c.isolation.inspect), ("pending_writes", toString c.pending),
    ("closed", Text.truth c.closed)]

end Connection

end Demarcation
