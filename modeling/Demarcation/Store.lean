/-
A transactional key/value store in memory: its committed entries, the connections opened on it,
and the native primitives of its transactions, counted and able to fail by plan. An operation of a
connection that fails has changed nothing.
-/
import Demarcation.Backend
import Demarcation.Store.Connection
import Demarcation.Store.Faults
import Demarcation.Text.Quoted

namespace Demarcation

structure Store where
  name : String := "memory"
  /-- The key under which transactions on the store are bound. -/
  key : ResourceKey
  capabilities : Capabilities := .all
  entries : Entries := []
  /-- The connections in the order of opening. -/
  connections : Array Connection := #[]
  /-- How many connections are open. -/
  openConnections : Nat := 0
  /-- A busy store refuses all operations on its data. -/
  busy : Bool := false
  stats : CallCounts := {}
  faults : FaultPlan := []

namespace Store

/-! ## Connections -/

/-- The connection of a name. -/
def connection? (s : Store) (c : ConnectionId) : Option Connection := s.connections[c]?

def setConnection (s : Store) (c : ConnectionId) (conn : Connection) : Store :=
  { s with connections := s.connections.setIfInBounds c conn }

/-- Opens a connection. -/
def connect (s : Store) (readOnly autoCommit : Bool) (isolation : Isolation) :
    ConnectionId × Store :=
  let c : ConnectionId := s.connections.size
  (c, { s with
    connections := s.connections.push { id := c.number, readOnly, autoCommit, isolation }
    openConnections := s.openConnections + 1 })

/-- Closes a connection and drops its staged changes. Closing twice changes nothing. -/
def close (s : Store) (c : ConnectionId) : Store :=
  match s.connection? c with
  | none => s
  | some conn =>
    if conn.closed then s
    else
      let s := s.setConnection c { conn with closed := true, log := [] }
      { s with openConnections := s.openConnections - 1 }

/-- The connection, if it can work now: it is not closed, and the store is not busy. A connection
that was never opened is as good as closed. -/
def usable (s : Store) (c : ConnectionId) : Except StorageError Connection :=
  match s.connection? c with
  | none => .error (.closed c.number)
  | some conn =>
    if conn.closed then .error (.closed c.number)
    else if s.busy then .error (.busy s.name)
    else .ok conn

/-! ## Reading -/

/-- What a connection sees of a key. -/
def get (s : Store) (c : ConnectionId) (key : String) : Except StorageError (Option Value) := do
  let conn ← s.usable c
  pure (conn.value? s.entries key)

def contains (s : Store) (c : ConnectionId) (key : String) : Except StorageError Bool := do
  pure (← s.get c key).isSome

/-- What a connection sees of the keys that begin with `start`, in the order of the keys. -/
def scan (s : Store) (c : ConnectionId) (start : String) : Except StorageError Entries := do
  let conn ← s.usable c
  pure (conn.entries s.entries start)

/-! ## Writing -/

/-- Whether a connection may not write. -/
def isReadOnly (s : Store) (c : ConnectionId) : Bool := (s.connection? c).any Connection.readOnly

/-- Stages a change, or publishes it if the connection is an auto-commit one. -/
def write (s : Store) (c : ConnectionId) (w : Write) : Except StorageError Store :=
  if s.isReadOnly c then .error (.readOnly c.number)
  else do
    let conn ← s.usable c
    if conn.autoCommit then pure { s with entries := s.entries.apply w }
    else pure (s.setConnection c { conn with log := conn.log ++ [w] })

/-- Writes a key whether or not it exists. -/
def put (s : Store) (c : ConnectionId) (key : String) (value : Value) :
    Except StorageError Store := s.write c (.put key value)

/-- Writes a key that must be new. -/
def insert (s : Store) (c : ConnectionId) (key : String) (value : Value) :
    Except StorageError Store := do
  if ← s.contains c key then .error (.duplicateKey key) else s.write c (.put key value)

/-- Writes a key that must exist. -/
def update (s : Store) (c : ConnectionId) (key : String) (value : Value) :
    Except StorageError Store := do
  if ← s.contains c key then s.write c (.put key value) else .error (.keyNotFound key)

/-- Deletes a key that must exist. -/
def delete (s : Store) (c : ConnectionId) (key : String) : Except StorageError Store := do
  if ← s.contains c key then s.write c (.delete key) else .error (.keyNotFound key)

/-! ## Transactions -/

/-- Publishes the staged changes of a connection. -/
def commit (s : Store) (c : ConnectionId) : Except StorageError Store := do
  let conn ← s.usable c
  pure { s.setConnection c { conn with log := [] } with entries := s.entries.applyAll conn.log }

/-- Drops the staged changes of a connection. -/
def rollback (s : Store) (c : ConnectionId) : Except StorageError Store := do
  let conn ← s.usable c
  pure (s.setConnection c { conn with log := [] })

/-- Takes a savepoint. -/
def savepoint (s : Store) (c : ConnectionId) : Except StorageError (Savepoint × Store) := do
  let conn ← s.usable c
  let sp := conn.nextSavepoint
  pure (sp, s.setConnection c { conn with savepoints := sp.id })

/-- A savepoint belongs to the connection whose number it has. -/
def checkOwner (c : ConnectionId) (sp : Savepoint) : Except StorageError Unit :=
  if sp.connection = c.number then .ok () else .error (.foreignSavepoint sp.id c.number)

/-- Drops the changes staged behind a savepoint. It is refused if the log does not reach it any
more. -/
def rollbackTo (s : Store) (c : ConnectionId) (sp : Savepoint) : Except StorageError Store := do
  checkOwner c sp
  let conn ← s.usable c
  if conn.log.length < sp.mark then .error (.invalidSavepoint sp.id)
  else pure (s.setConnection c { conn with log := conn.log.take sp.mark })

/-- Gives a savepoint back. -/
def release (s : Store) (c : ConnectionId) (sp : Savepoint) : Except StorageError Unit := do
  checkOwner c sp
  let _ ← s.usable c

/-! ## Primitives -/

/-- Counts a call of a primitive, which fails if that is planned. -/
def enter (p : Primitive) : Native Store Unit := fun s =>
  let (fails, faults) := s.faults.take p
  let s := { s with stats := s.stats.record p, faults }
  (if fails then .error (.storage (.injected p)) else .ok (), s)

/-- A counted primitive around an operation on the store. -/
def primitive {α : Type} (p : Primitive) (op : Native Store α) : Native Store α := fun s =>
  match enter p s with
  | (.error f, s) => (.error f, s)
  | (.ok (), s) => op s

/-- An operation that changes the store or fails. -/
def changing (op : Store → Except StorageError Store) : Native Store Unit := fun s =>
  match op s with
  | .ok s => (.ok (), s)
  | .error e => (.error (.storage e), s)

/-- The native primitives of the store's transactions. -/
def backend (key : ResourceKey) (capabilities : Capabilities) :
    Backend Store ConnectionId Savepoint where
  key := key
  kind := .holderOf "connection"
  capabilities := capabilities
  start d := primitive .begin fun s =>
    let (c, s) := s.connect d.readOnly false d.isolation
    (.ok c, s)
  suspend _ := primitive .suspend (.done ())
  resume _ := primitive .resume (.done ())
  commit c := primitive .commit (changing (·.commit c))
  rollback c := primitive .rollback (changing (·.rollback c))
  cleanup c := primitive .cleanup fun s => (.ok (), s.close c)
  createSavepoint c := primitive .createSavepoint fun s =>
    match s.savepoint c with
    | .ok (sp, s) => (.ok sp, s)
    | .error e => (.error (.storage e), s)
  rollbackToSavepoint c sp := primitive .rollbackToSavepoint (changing (·.rollbackTo c sp))
  releaseSavepoint c sp := primitive .releaseSavepoint fun s =>
    match s.release c sp with
    | .ok () => (.ok (), s)
    | .error e => (.error (.storage e), s)

/-! ## Looking at a store -/

def inspect (s : Store) : String :=
  Text.record "MemoryStore" [("name", Text.quoted s.name), ("key", s.key.inspect),
    ("entries", toString s.entries.length), ("open_connections", toString s.openConnections)]

end Store

end Demarcation
