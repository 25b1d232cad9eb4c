/-
Working on a store through a context: on the connection of the transaction bound to the context,
or on a fresh auto-commit connection when there is none.
-/
import Demarcation.Session
import Demarcation.Store

namespace Demarcation

/-- Where a store stands in the native state of a session, and how its connections are written
among the session's resources. -/
structure StoreSite (σ ρ : Type) where
  slot : Slot σ Store
  resource : Case ρ ConnectionId
  /-- The key of the store. -/
  key : ResourceKey

/-- The connection that a context works on. -/
inductive Access
  /-- That of the transaction bound to the context. -/
  | transactional (h : HolderId) (c : ConnectionId)
  /-- One of its own, to be closed after use. -/
  | autoCommit (c : ConnectionId)
deriving DecidableEq, Repr

namespace Access

def connection : Access → ConnectionId
  | transactional _ c => c
  | autoCommit c => c

def isTransactional : Access → Bool
  | transactional _ _ => true
  | autoCommit _ => false

/-- The text of an access, given that of its connection. -/
def inspect (a : Access) (connection : String) : String :=
  Text.tagged (if a.isTransactional then "Transactional" else "AutoCommit") connection

end Access

namespace StoreSite

open Session

variable {σ ρ ς : Type}

/-- A store that is the whole native state. -/
def whole (key : ResourceKey) : StoreSite Store ConnectionId := ⟨.whole, .whole, key⟩

/-- The type of the holders of the store's connections. -/
def kind : HolderKind := .holderOf "connection"

def store (site : StoreSite σ ρ) (s : Session σ ρ ς) : Store := site.slot.get s.native

def modifyStore (site : StoreSite σ ρ) (f : Store → Store) (s : Session σ ρ ς) : Session σ ρ ς :=
  { s with native := site.slot.set (f (site.slot.get s.native)) s.native }

/-- The time that a holder's transaction has left; reading it may mark the transaction
rollback-only. -/
def timeToLive (h : HolderId) : Attempt σ ρ ς TransactionError (Option Duration) := fun s =>
  match s.holder? h with
  | none => (.ok none, s)
  | some holder =>
    let (r, holder) := holder.timeToLive s.now
    (r, s.modifyHolder h fun _ => holder)

/-- Opens an auto-commit connection. -/
def connectAlone (site : StoreSite σ ρ) : Attempt σ ρ ς StorageError Access := fun s =>
  let (c, store) := (site.store s).connect false true .unspecified
  (.ok (.autoCommit c), site.modifyStore (fun _ => store) s)

/-- The connection of a context. Fails once the deadline of the bound transaction is reached. -/
def access (site : StoreSite σ ρ) (c : ContextIndex) : Attempt σ ρ ς StorageError Access := do
  match ← (find c kind site.key).adapt (.transaction ∘ .registry) with
  | none => site.connectAlone
  | some h =>
    let _ ← (timeToLive h).adapt .transaction
    match (((← get).holder? h).bind fun holder => site.resource.unwrap holder.resource) with
    | some conn => pure (.transactional h conn)
    | none => site.connectAlone

/-- Closes an access that is a connection of its own. -/
def leave (site : StoreSite σ ρ) (a : Access) (s : Session σ ρ ς) : Session σ ρ ς :=
  match a with
  | .transactional _ _ => s
  | .autoCommit c => site.modifyStore (·.close c) s

/-- An operation on the store that changes nothing when it fails. -/
def perform {α : Type} (site : StoreSite σ ρ) (op : Store → Except StorageError (α × Store)) :
    Attempt σ ρ ς StorageError α := fun s =>
  match op (site.store s) with
  | .ok (a, store) => (.ok a, site.modifyStore (fun _ => store) s)
  | .error e => (.error e, s)

/-- An operation on the connection of a context. -/
def through {α : Type} (site : StoreSite σ ρ) (c : ContextIndex)
    (op : ConnectionId → Store → Except StorageError (α × Store)) :
    Attempt σ ρ ς StorageError α := do
  let a ← site.access c
  let r ← observe (site.perform (op a.connection))
  modify (site.leave a)
  match r with
  | .ok v => pure v
  | .error e => throw e

end StoreSite

end Demarcation
